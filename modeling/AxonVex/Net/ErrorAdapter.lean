import AxonVex.Net.DispatchBarrier

/-!
# Net/ErrorAdapter — the object behind an error callback

    setErrorCallback:  lock; wait until inFlight_ = 0; unregister and destroy the old adapter;
                       make and register the new one; unlock

The error handlers of users are pointers that the client does not own; the adapter of
`setErrorCallback` is an object that it makes and destroys.  A call that waits destroys it when no
dispatch is in flight.  A call from inside a dispatch does not wait: it destroys an adapter that its
own dispatch may be executing, or one of another thread (`setErrorCallback_destroys_running`).  In
the runs in which such a call finds no dispatch that holds the adapter, what a dispatch executes is
alive (`adapters_alive`).  `UdpSocket` does the same.
-/

namespace AxonVex

open Machinery

namespace TcpCallbacks

variable (s : TcpCallbacks)

/-! ## Adapters as objects -/

/-- An error dispatch runs this handler, or has still to call it. -/
def Holds (c : ℕ) : Prop :=
  ∃ d ∈ s.dispatches, d.kind = .error ∧ (d.running = some c ∨ c ∈ d.targets)

instance (c : ℕ) : Decidable (s.Holds c) := inferInstanceAs (Decidable (∃ d ∈ _, _ ∧ _))

/-- The adapter that a call brings in. -/
def Label.brings : Label → Option ℕ
  | .call _ (.setErrorCallback adapter) => adapter
  | _ => none

/-- The error handler of a user that a call registers. -/
def Label.hands : Label → Option ℕ
  | .register _ .error _ callback => callback
  | _ => none

/-- A new object is none that is registered, or held by a dispatch, and no earlier adapter. -/
def Fresh (made : List ℕ) (c : ℕ) : Prop :=
  c ∉ made ∧ (∀ e ∈ s.registry .error, e.2 ≠ c) ∧ ¬ s.Holds c

instance (made : List ℕ) (c : ℕ) : Decidable (s.Fresh made c) :=
  inferInstanceAs (Decidable (_ ∧ _ ∧ _))

/-- The callbacks of a client, with the adapters made so far: each is an object of its own, and no
user registers one. -/
def owning : Machine (TcpCallbacks × List ℕ) Label where
  init p := p = ({}, [])
  step p a :=
    if (∀ c ∈ a.brings, p.1.Fresh p.2 c) ∧ ∀ c ∈ a.hands, c ∉ p.2 then
      (p.1.step a).map fun t => (t, p.2 ++ a.brings.toList)
    else none

/-- **What a dispatch executes is alive**: an adapter that runs is the adapter of the client. -/
def Alive (p : TcpCallbacks × List ℕ) : Prop :=
  ∀ d ∈ p.1.dispatches, d.kind = .error →
    ∀ c ∈ p.2, d.running = some c → p.1.errorAdapter_ = some c

/-- A `setErrorCallback` from inside a dispatch finds no dispatch that holds the adapter. -/
def Released (p : TcpCallbacks × List ℕ) : Label → Prop
  | .call thread (.setErrorCallback _) =>
    (∃ d ∈ p.1.dispatches, d.thread = thread) → ∀ c ∈ p.1.errorAdapter_, ¬ p.1.Holds c
  | _ => True

instance (p : TcpCallbacks × List ℕ) : ∀ a, Decidable (Released p a)
  | .call _ (.setErrorCallback _) => inferInstanceAs (Decidable (_ → _))
  | .call _ (.unregister ..) => inferInstanceAs (Decidable True)
  | .call _ (.unregisterAll ..) => inferInstanceAs (Decidable True)
  | .call _ (.setMessageCallback _) => inferInstanceAs (Decidable True)
  | .dispatchMessage _ => inferInstanceAs (Decidable True)
  | .reportError .. => inferInstanceAs (Decidable True)
  | .invoke _ => inferInstanceAs (Decidable True)
  | .handlerReturns _ => inferInstanceAs (Decidable True)
  | .handlerThrows _ => inferInstanceAs (Decidable True)
  | .leave _ => inferInstanceAs (Decidable True)
  | .register .. => inferInstanceAs (Decidable True)
  | .wake _ => inferInstanceAs (Decidable True)

variable {s} {t : TcpCallbacks} {made : List ℕ}

/-! ## What keeps an adapter alive -/

/-- **An adapter that is registered or held is the adapter of the client**, and one that a waiting
thread brings is neither. -/
structure Kept (s : TcpCallbacks) (made : List ℕ) : Prop where
  held : ∀ c ∈ made, s.Holds c → s.errorAdapter_ = some c
  registered : ∀ c ∈ made, ∀ key, (key, c) ∈ s.registry .error →
    s.errorAdapter_ = some c ∧ key = defaultKey
  once : ∀ c ∈ made, (s.registry .error).count (defaultKey, c) ≤ 1
  adapter : ∀ c, s.errorAdapter_ = some c → c ∈ made
  waiting : ∀ thread c, s.waiting thread = some (.setErrorCallback (some c)) →
    c ∈ made ∧ ∀ key, (key, c) ∉ s.registry .error
  apart : ∀ thread thread' c, s.waiting thread = some (.setErrorCallback (some c)) →
    s.waiting thread' = some (.setErrorCallback (some c)) → thread = thread'

/-- A call that sets no error callback removes error handlers at most. -/
theorem perform_other {call : RegistryCall} (hcall : ∀ c, call ≠ .setErrorCallback c) :
    ((s.perform call).registry .error).Sublist (s.registry .error) ∧
      (s.perform call).errorAdapter_ = s.errorAdapter_ := by
  have hne : HandlerKind.error ≠ .message := by decide
  cases call with
  | unregister kind key callback =>
    refine ⟨?_, rfl⟩
    cases kind with
    | message => rw [perform, setRegistry_of_ne hne]
    | error =>
      rw [perform, setRegistry_self]
      cases callback with
      | none => exact .refl _
      | some c => exact List.erase_sublist
  | unregisterAll kind key =>
    refine ⟨?_, rfl⟩
    cases kind with
    | message => rw [perform, setRegistry_of_ne hne]
    | error =>
      rw [perform, setRegistry_self]
      exact List.filter_sublist
  | setMessageCallback callback =>
    refine ⟨?_, rfl⟩
    rw [perform, replaceDefault, setRegistry_of_ne hne]
  | setErrorCallback c => exact absurd rfl (hcall c)

/-- Where error handlers and dispatches only go. -/
theorem Kept.less (h : Kept s made) (hheld : ∀ c, t.Holds c → s.Holds c)
    (hregistry : (t.registry .error).Sublist (s.registry .error))
    (hadapter : t.errorAdapter_ = s.errorAdapter_)
    (hwaiting : ∀ thread c, t.waiting thread = some (.setErrorCallback (some c)) →
      s.waiting thread = some (.setErrorCallback (some c))) : Kept t made where
  held c hc hholds := hadapter.trans (h.held c hc (hheld c hholds))
  registered c hc key hmem := by
    obtain ⟨hadapter', hkey⟩ := h.registered c hc key (hregistry.subset hmem)
    exact ⟨hadapter.trans hadapter', hkey⟩
  once c hc := (hregistry.count_le _).trans (h.once c hc)
  adapter c hc := h.adapter c (hadapter.symm.trans hc)
  waiting thread c hwait := by
    obtain ⟨hmade, hnot⟩ := h.waiting thread c (hwaiting thread c hwait)
    exact ⟨hmade, fun key hmem => hnot key (hregistry.subset hmem)⟩
  apart thread thread' c hwait hwait' :=
    h.apart thread thread' c (hwaiting _ _ hwait) (hwaiting _ _ hwait')

/-- **A new error callback**, where no dispatch holds the adapter that is destroyed. -/
theorem Kept.replace (h : Kept s made) {new : Option ℕ} {wait : ℕ → Option RegistryCall}
    (hreleased : ∀ c ∈ s.errorAdapter_, ¬ s.Holds c)
    (hnew : ∀ c ∈ new, c ∈ made ∧ ∀ key, (key, c) ∉ s.registry .error)
    (hwaiting : ∀ thread c, wait thread = some (.setErrorCallback (some c)) →
      s.waiting thread = some (.setErrorCallback (some c)) ∧ new ≠ some c) :
    Kept { s.perform (.setErrorCallback new) with waiting := wait } made := by
  -- nobody holds an adapter, and the only registration of the old one goes
  have hnobody : ∀ c ∈ made, ¬ s.Holds c := fun c hc hholds =>
    hreleased c (h.held c hc hholds) hholds
  have hold : ∀ c ∈ made, ∀ key, (key, c) ∉
      ((s.registry .error).unregisterKeyedCallback defaultKey s.errorAdapter_).1 := by
    intro c hc key hmem
    have hbefore : (key, c) ∈ s.registry .error := by
      cases hadapter : s.errorAdapter_ with
      | none => rwa [hadapter] at hmem
      | some old =>
        rw [hadapter] at hmem
        exact List.mem_of_mem_erase hmem
    obtain ⟨hadapter, rfl⟩ := h.registered c hc key hbefore
    rw [hadapter] at hmem
    have hpos := List.count_pos_iff.mpr hmem
    have herase : ((s.registry .error).erase (defaultKey, c)).count (defaultKey, c) =
        (s.registry .error).count (defaultKey, c) - 1 := List.count_erase_self
    have hzero : 0 < ((s.registry .error).erase (defaultKey, c)).count (defaultKey, c) := hpos
    have hone := h.once c hc
    omega
  have hregistry : (s.perform (.setErrorCallback new)).registry .error =
      ((s.registry .error).unregisterKeyedCallback defaultKey s.errorAdapter_).1.registerKeyedCallback
        defaultKey new := by
    rw [perform, replaceDefault, setRegistry_self]
  have hmem {c : ℕ} (hc : c ∈ made) {key : String}
      (hmem : (key, c) ∈ (s.perform (.setErrorCallback new)).registry .error) :
      new = some c ∧ key = defaultKey := by
    rw [hregistry] at hmem
    rcases List.mem_append.mp hmem with hmem | hmem
    · exact absurd hmem (hold c hc key)
    · obtain ⟨c', hc', ⟨⟩⟩ := Option.map_eq_some_iff.mp (Option.mem_toList.mp hmem)
      exact ⟨hc', rfl⟩
  refine ⟨fun c hc hholds => absurd hholds (hnobody c hc), fun c hc key => hmem hc, fun c hc => ?_,
    fun c hc => (hnew c hc).1, fun thread c hwait => ?_, fun thread thread' c hwait hwait' => ?_⟩
  · change ((s.perform (.setErrorCallback new)).registry .error).count (defaultKey, c) ≤ 1
    rw [hregistry, CallerKeyed.registerKeyedCallback, List.count_append,
      List.count_eq_zero.mpr (hold c hc defaultKey), Nat.zero_add]
    refine List.count_le_length.trans ?_
    cases new <;> simp
  · obtain ⟨hwait, hne⟩ := hwaiting thread c hwait
    have hmade := (h.waiting thread c hwait).1
    exact ⟨hmade, fun key hreg => hne (hmem hmade hreg).1⟩
  · exact h.apart thread thread' c (hwaiting thread c hwait).1 (hwaiting thread' c hwait').1

/-- **A new adapter** is made. -/
theorem Kept.bring (h : Kept s made) {c : ℕ} (hc : s.Fresh made c) : Kept s (made ++ [c]) := by
  obtain ⟨hnew, hregistry, hholds⟩ := hc
  have hunregistered (key : String) : (key, c) ∉ s.registry .error := fun hmem => hregistry _ hmem rfl
  refine ⟨fun c' hc' hholds' => ?_, fun c' hc' key hmem => ?_, fun c' hc' => ?_, fun c' hc' => ?_,
    fun thread c' hwait => ?_, h.apart⟩
  · rcases List.mem_append.mp hc' with hc' | hc'
    · exact h.held c' hc' hholds'
    · exact absurd (List.mem_singleton.mp hc' ▸ hholds') hholds
  · rcases List.mem_append.mp hc' with hc' | hc'
    · exact h.registered c' hc' key hmem
    · exact absurd (List.mem_singleton.mp hc' ▸ hmem) (hunregistered key)
  · rcases List.mem_append.mp hc' with hc' | hc'
    · exact h.once c' hc'
    · obtain rfl := List.mem_singleton.mp hc'
      rw [List.count_eq_zero.mpr (hunregistered defaultKey)]
      exact Nat.zero_le 1
  · exact List.mem_append_left _ (h.adapter c' hc')
  · obtain ⟨hmade, hnot⟩ := h.waiting thread c' hwait
    exact ⟨List.mem_append_left _ hmade, hnot⟩

/-- A handler of a user is registered. -/
theorem Kept.register (h : Kept s made) (kind : HandlerKind) (key : String) {callback : Option ℕ}
    (hcallback : kind = .error → ∀ c ∈ callback, c ∉ made) :
    Kept (s.setRegistry kind ((s.registry kind).registerKeyedCallback key callback)) made := by
  cases kind with
  | message =>
    refine h.less (fun _ => id) ?_ rfl fun _ _ => id
    rw [setRegistry_of_ne (by decide)]
  | error =>
    have hold {c : ℕ} (hc : c ∈ made) {key' : String} (hmem : (key', c) ∈
        (s.setRegistry .error ((s.registry .error).registerKeyedCallback key callback)).registry
          .error) : (key', c) ∈ s.registry .error := by
      rw [setRegistry_self] at hmem
      rcases List.mem_append.mp hmem with hmem | hmem
      · exact hmem
      · obtain ⟨c', hc', ⟨⟩⟩ := Option.map_eq_some_iff.mp (Option.mem_toList.mp hmem)
        exact absurd hc (hcallback rfl _ hc')
    refine ⟨h.held, fun c hc key' hmem => h.registered c hc key' (hold hc hmem), fun c hc => ?_,
      h.adapter, fun thread c hwait => ?_, h.apart⟩
    · rw [setRegistry_self, CallerKeyed.registerKeyedCallback, List.count_append]
      have hnone : ((callback.map fun c => (key, c)).toList).count (defaultKey, c) = 0 := by
        refine List.count_eq_zero.mpr fun hmem => ?_
        obtain ⟨c', hc', heq⟩ := Option.map_eq_some_iff.mp (Option.mem_toList.mp hmem)
        obtain ⟨-, rfl⟩ := Prod.mk.inj heq
        exact hcallback rfl c' hc' hc
      rw [hnone, Nat.add_zero]
      exact h.once c hc
    · obtain ⟨hmade, hnot⟩ := h.waiting thread c hwait
      exact ⟨hmade, fun key' hmem => hnot key' (hold hmade hmem)⟩

/-- A dispatch takes its snapshot. -/
theorem Kept.beginDispatch (h : Kept s made) (thread : ℕ) (kind : HandlerKind) :
    Kept (s.beginDispatch thread kind) made := by
  rw [TcpCallbacks.beginDispatch]
  split
  · exact h
  · refine ⟨?_, h.registered, h.once, h.adapter, h.waiting, h.apart⟩
    rintro c hc ⟨d, hd, hkind, hd'⟩
    rcases List.mem_cons.mp hd with rfl | hd
    · obtain rfl : kind = .error := hkind
      have hmem := mem_snapshot.mp (hd'.resolve_left (by simp))
      exact (h.registered c hc _ hmem).1
    · exact h.held c hc ⟨d, hd, hkind, hd'⟩

/-- A dispatch goes on. -/
theorem Kept.updateInnermost (h : Kept s made) (thread : ℕ) {f : Dispatch → Dispatch}
    (hf : ∀ d c, (f d).kind = d.kind ∧ ((f d).running = some c ∨ c ∈ (f d).targets →
      d.running = some c ∨ c ∈ d.targets)) :
    Kept { s with dispatches := updateInnermost thread f s.dispatches } made := by
  refine h.less (fun c ⟨d, hd, hkind, hd'⟩ => ?_) (.refl _) rfl fun _ _ => id
  rcases mem_updateInnermost hd with hd | ⟨d', hd'', rfl⟩
  · exact ⟨d, hd, hkind, hd'⟩
  · exact ⟨d', hd'', (hf d' c).1 ▸ hkind, (hf d' c).2 hd'⟩

/-- A call is performed, from inside a dispatch or at quiescence. -/
theorem Kept.perform (h : Kept s made) {call : RegistryCall} {wait : ℕ → Option RegistryCall}
    (hreleased : ∀ c, call = .setErrorCallback c → ∀ c ∈ s.errorAdapter_, ¬ s.Holds c)
    (hnew : ∀ c, call = .setErrorCallback (some c) → c ∈ made ∧ ∀ key, (key, c) ∉ s.registry .error)
    (hwaiting : ∀ thread c, wait thread = some (.setErrorCallback (some c)) →
      s.waiting thread = some (.setErrorCallback (some c)) ∧ call ≠ .setErrorCallback (some c)) :
    Kept { s.perform call with waiting := wait } made := by
  by_cases hcall : ∃ c, call = .setErrorCallback c
  · obtain ⟨new, rfl⟩ := hcall
    refine h.replace (hreleased new rfl) (fun c hc => hnew c (by rw [hc])) fun thread c hwait => ?_
    obtain ⟨hwait, hne⟩ := hwaiting thread c hwait
    exact ⟨hwait, fun heq => hne (by rw [heq])⟩
  · have hother := perform_other (s := s) fun c hc => hcall ⟨c, hc⟩
    obtain ⟨-, hdispatches, -⟩ := s.perform_frame call
    refine h.less (fun c ⟨d, hd, hd'⟩ => ⟨d, hdispatches ▸ hd, hd'⟩) hother.1 hother.2
      fun thread c hwait => (hwaiting thread c hwait).1

/-- A thread begins to wait with the adapter that it brings. -/
theorem Kept.wait (h : Kept s made) {thread : ℕ} {call : RegistryCall}
    (hnew : ∀ c, call = .setErrorCallback (some c) →
      c ∈ made ∧ (∀ key, (key, c) ∉ s.registry .error) ∧
        ∀ thread', s.waiting thread' ≠ some (.setErrorCallback (some c))) :
    Kept { s with waiting := Function.update s.waiting thread (some call) } made := by
  have hcases {thread' c : ℕ} (hwait : Function.update s.waiting thread (some call) thread' =
      some (.setErrorCallback (some c))) : thread' = thread ∧ call = .setErrorCallback (some c) ∨
        s.waiting thread' = some (.setErrorCallback (some c)) := by
    by_cases heq : thread' = thread
    · rw [heq, Function.update_self] at hwait
      exact .inl ⟨heq, Option.some.inj hwait⟩
    · rw [Function.update_of_ne heq] at hwait
      exact .inr hwait
  refine ⟨h.held, h.registered, h.once, h.adapter, fun thread' c hwait => ?_,
    fun thread' thread'' c hwait hwait' => ?_⟩
  · rcases hcases hwait with ⟨-, hcall⟩ | hwait
    · exact ⟨(hnew c hcall).1, (hnew c hcall).2.1⟩
    · exact h.waiting thread' c hwait
  · rcases hcases hwait with ⟨heq, hcall⟩ | hwait
    · rcases hcases hwait' with ⟨heq', -⟩ | hwait'
      · rw [heq, heq']
      · exact absurd hwait' ((hnew c hcall).2.2 thread'')
    · rcases hcases hwait' with ⟨-, hcall⟩ | hwait'
      · exact absurd hwait ((hnew c hcall).2.2 thread')
      · exact h.apart thread' thread'' c hwait hwait'

/-- **Every step keeps the adapters alive**, if a `setErrorCallback` from inside a dispatch finds
its adapter released. -/
theorem Kept.step (h : Kept s made) (hI : Inv s) {a : Label}
    (hfresh : ∀ c ∈ a.brings, s.Fresh made c) (hhands : ∀ c ∈ a.hands, c ∉ made)
    (hreleased : Released (s, made) a) (hstep : s.step a = some t) :
    Kept t (made ++ a.brings.toList) := by
  have hquiet (hnone : a.brings = none) (ht : Kept t made) : Kept t (made ++ a.brings.toList) := by
    rw [hnone, Option.toList_none, List.append_nil]
    exact ht
  cases a with
  | dispatchMessage thread =>
    obtain ⟨-, hsome⟩ := Option.ite_none_right_eq_some.mp hstep
    refine hquiet rfl ?_
    exact Option.some.inj hsome ▸ h.beginDispatch thread .message
  | reportError thread elsewhere =>
    obtain ⟨-, hsome⟩ := Option.ite_none_right_eq_some.mp hstep
    refine hquiet rfl ?_
    split at hsome
    · exact Option.some.inj hsome ▸ h
    · exact Option.some.inj hsome ▸ h.beginDispatch thread .error
  | invoke thread =>
    obtain ⟨d, -, hsome⟩ := Option.bind_eq_some_iff.mp hstep
    obtain ⟨-, hsome⟩ := Option.ite_none_right_eq_some.mp hsome
    refine hquiet rfl ?_
    refine Option.some.inj hsome ▸ h.updateInnermost thread fun d c => ⟨rfl, fun hd => .inr ?_⟩
    exact hd.elim List.mem_of_mem_head? List.mem_of_mem_tail
  | handlerReturns thread =>
    obtain ⟨d, -, hsome⟩ := Option.bind_eq_some_iff.mp hstep
    obtain ⟨-, hsome⟩ := Option.ite_none_right_eq_some.mp hsome
    refine hquiet rfl ?_
    exact Option.some.inj hsome ▸ h.updateInnermost thread fun d c =>
      ⟨rfl, fun hd => .inr (hd.resolve_left (by simp))⟩
  | handlerThrows thread =>
    obtain ⟨d, -, hsome⟩ := Option.bind_eq_some_iff.mp hstep
    obtain ⟨-, hsome⟩ := Option.ite_none_right_eq_some.mp hsome
    refine hquiet rfl ?_
    exact Option.some.inj hsome ▸ h.updateInnermost thread fun d c =>
      ⟨rfl, fun hd => absurd hd (by simp)⟩
  | leave thread =>
    obtain ⟨d, -, hsome⟩ := Option.bind_eq_some_iff.mp hstep
    obtain ⟨-, hsome⟩ := Option.ite_none_right_eq_some.mp hsome
    refine hquiet rfl ?_
    exact Option.some.inj hsome ▸ h.less
      (fun c ⟨d, hd, hd'⟩ => ⟨d, List.mem_of_mem_eraseP hd, hd'⟩) (.refl _) rfl fun _ _ => id
  | register thread kind key callback =>
    obtain ⟨-, hsome⟩ := Option.ite_none_right_eq_some.mp hstep
    refine hquiet rfl ?_
    refine Option.some.inj hsome ▸ h.register kind key fun hkind c hc => ?_
    subst hkind
    exact hhands c hc
  | call thread call =>
    obtain ⟨-, hsome⟩ := Option.ite_none_right_eq_some.mp hstep
    have hbrings (c : ℕ) (hcall : call = .setErrorCallback (some c)) :
        (Label.call thread call).brings = some c := by rw [hcall, Label.brings]
    have hnew (c : ℕ) (hcall : call = .setErrorCallback (some c)) := hfresh c (hbrings c hcall)
    have hmade (c : ℕ) (hcall : call = .setErrorCallback (some c)) :
        c ∈ made ++ (Label.call thread call).brings.toList ∧ ∀ key, (key, c) ∉ s.registry .error :=
      ⟨List.mem_append_right _ (by rw [hbrings c hcall]; exact List.mem_singleton_self c),
        fun key hmem => (hnew c hcall).2.1 _ hmem rfl⟩
    have hapart (c : ℕ) (hcall : call = .setErrorCallback (some c)) (thread' : ℕ) :
        s.waiting thread' ≠ some (.setErrorCallback (some c)) := fun hwait =>
      (hnew c hcall).1 (h.waiting thread' c hwait).1
    have h' : Kept s (made ++ (Label.call thread call).brings.toList) := by
      cases hb : (Label.call thread call).brings with
      | none => exact (List.append_nil made).symm ▸ h
      | some c => exact h.bring (hfresh c hb)
    split at hsome
    · exact Option.some.inj hsome ▸ h'.wait fun c hcall =>
        ⟨(hmade c hcall).1, (hmade c hcall).2, hapart c hcall⟩
    next hwaits =>
      have hsame : { s.perform call with waiting := s.waiting } = s.perform call := by
        cases call <;> rfl
      refine Option.some.inj hsome ▸ hsame ▸ h'.perform (fun new hcall c hc hholds => ?_) hmade
        fun thread' c hwait => ⟨hwait, fun hcall => hapart c hcall thread' hwait⟩
      -- either the thread is in a dispatch, or nobody is
      obtain ⟨d, hd, hd'⟩ := hholds
      have hinside : ∃ d ∈ s.dispatches, d.thread = thread := by
        by_contra hnone
        exact hwaits (hI.waits_iff.mpr ⟨fun d hd heq => hnone ⟨d, hd, heq⟩,
          List.ne_nil_of_mem hd⟩)
      subst hcall
      exact hreleased hinside c hc ⟨d, hd, hd'⟩
  | wake thread =>
    obtain ⟨call, hcall, hsome⟩ := Option.bind_eq_some_iff.mp hstep
    obtain ⟨hzero, hsome⟩ := Option.ite_none_right_eq_some.mp hsome
    refine hquiet rfl ?_
    have hnil : s.dispatches = [] := List.eq_nil_of_length_eq_zero (hI.inFlight.symm.trans hzero)
    refine Option.some.inj hsome ▸ h.perform (fun _ _ c _ ⟨d, hd, _⟩ => ?_)
      (fun c heq => h.waiting thread c (heq ▸ hcall)) fun thread' c hwait => ?_
    · exact absurd (hnil ▸ hd) List.not_mem_nil
    · by_cases heq : thread' = thread
      · rw [heq, Function.update_self] at hwait
        cases hwait
      · rw [Function.update_of_ne heq] at hwait
        exact ⟨hwait, fun hcall' => heq (h.apart thread' thread c hwait (hcall' ▸ hcall))⟩

/-! ## Every run -/

/-- **What a dispatch executes is alive**, in the runs in which a `setErrorCallback` from inside a
dispatch finds no dispatch that holds the adapter. -/
theorem adapters_alive {p : TcpCallbacks × List ℕ} (h : owning.ReachableUnder Released p) :
    Alive p := by
  have hinv : Inv p.1 ∧ Kept p.1 p.2 := by
    refine h.invariant (I := fun p => Inv p.1 ∧ Kept p.1 p.2)
      ⟨fun p hp => ?_, fun p a p' ⟨hI, hK⟩ hreleased hstep => ?_⟩
    · have hp' : p = ({}, []) := hp
      rw [hp']
      exact ⟨⟨.empty, rfl, fun _ hwait => by cases hwait⟩, by simp, by simp, by simp, by simp,
        by simp, by simp⟩
    · obtain ⟨⟨hfresh, hhands⟩, hsome⟩ := Option.ite_none_right_eq_some.mp hstep
      obtain ⟨t, ht, rfl⟩ := Option.map_eq_some_iff.mp hsome
      exact ⟨hI.step ht, hK.step hI hfresh hhands hreleased ht⟩
  exact fun d hd hkind c hc hrunning => hinv.2.held c hc ⟨d, hd, hkind, .inl hrunning⟩

/-- An adapter runs, and another thread waits to replace it. -/
def replaced : List Label :=
  [.call 0 (.setErrorCallback (some 7)), .reportError 1 false, .invoke 1,
    .call 2 (.setErrorCallback (some 8))]

theorem adapters_alive_replaced : ∃ p, owning.exec ({}, []) replaced = some p ∧
    p.1.errorAdapter_ = some 7 ∧ Alive p := by
  have hrun : (owning.exec ({}, []) replaced).any (fun p => p.1.errorAdapter_ == some 7) = true := by
    decide +kernel
  obtain ⟨p, hp, hadapter⟩ := (Option.any_eq_true _ _).mp hrun
  have hallowed : owning.Allowed Released ({}, []) replaced :=
    Machine.allowed_of_checks (g := fun p a => decide (Released p a))
      (fun _ _ => of_decide_eq_true) (by decide +kernel)
  exact ⟨p, hp, eq_of_beq hadapter, adapters_alive (.exec (.init rfl) hallowed hp)⟩

/-- An error callback that sets another is destroyed while it runs. -/
theorem setErrorCallback_destroys_running : ¬ ∀ p, owning.Reachable p → Alive p := by
  intro h
  have hrun : (owning.exec ({}, []) [.call 0 (.setErrorCallback (some 7)), .reportError 1 false,
      .invoke 1, .call 1 (.setErrorCallback (some 8))]).any (fun p =>
        p.2.contains 7 && p.1.errorAdapter_ == some 8 && p.1.dispatches.any fun d =>
          decide (d.kind = .error) && d.running == some 7) = true := by decide +kernel
  obtain ⟨p, hp, hbad⟩ := (Option.any_eq_true _ _).mp hrun
  simp only [Bool.and_eq_true, List.contains_iff_mem, beq_iff_eq, List.any_eq_true,
    decide_eq_true_eq] at hbad
  obtain ⟨⟨hmade, hadapter⟩, d, hd, hkind, hrunning⟩ := hbad
  have halive := h p (.exec (.init rfl) hp) d hd hkind 7 hmade hrunning
  rw [hadapter] at halive
  cases halive

end TcpCallbacks

end AxonVex
