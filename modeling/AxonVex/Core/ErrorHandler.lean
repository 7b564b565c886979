import AxonVex.Machinery.Machine
import AxonVex.Machinery.Mutex
import AxonVex.Machinery.SlidingWindow

/-!
# Core/ErrorHandler — the last errors, and a callback under the lock

    reportError:  lock; error_count_ + 1; critical_error_count_ + 1?; push, trim; callback(error); unlock
    clearErrors:  lock; errors_ ← {}; unlock

The callback runs while its thread holds `errors_mutex_`, which is not recursive: an operation that
locks it and is called from the callback never returns, nor does anybody else's.  `clearErrors`
leaves `critical_error_count_` as it is, so that `hasCriticalErrors` goes on about errors that are
gone.  In the runs in which neither happens the handler keeps what it promises, and only in those
(`errorHandler_sound_iff`).
-/

namespace AxonVex

open Machinery SlidingWindow

/-- `ErrorSeverity`. -/
inductive ErrorSeverity
  | debug
  | info
  | warning
  | error
  | critical
  | fatal
  deriving DecidableEq, Repr

/-- `ErrorCategory`. -/
inductive ErrorCategory
  | none
  | configuration
  | initialization
  | runtime
  | memory
  | timing
  | communication
  | resource
  | validation
  | system
  | unknown
  deriving DecidableEq, Repr

/-- The value of the enumerator. -/
def ErrorSeverity.value : ErrorSeverity → ℕ
  | debug => 0
  | info => 1
  | warning => 2
  | error => 3
  | critical => 4
  | fatal => 5

/-- `ErrorInfo`, without its timestamp. -/
structure ErrorInfo where
  severity : ErrorSeverity := .error
  category : ErrorCategory := .unknown
  message : String := ""
  component_name : String := ""
  source_file : String := ""
  source_line : ℤ := 0
  source_function : String := ""
  deriving DecidableEq, Repr

/-- `isCritical()`. -/
def ErrorInfo.isCritical (e : ErrorInfo) : Bool :=
  decide (ErrorSeverity.critical.value ≤ e.severity.value)

namespace ErrorHandler

/-- The operations that only look at the errors, under the lock. -/
inductive Reader
  | hasErrors
  | getErrorReport
  | getLastError
  deriving DecidableEq, Repr

/-- An operation that locks `errors_mutex_`. -/
inductive Call (C : Type*)
  | reportError (error : ErrorInfo)
  | clearErrors
  | read (reader : Reader)
  | setErrorCallback (callback : Option C)
  | setRecoveryCallback (callback : Option C)
  deriving DecidableEq, Repr

/-- What a thread is about to do. -/
inductive Act (C : Type*)
  /-- something of its own, which in a callback is the callback's -/
  | own
  /-- to lock the mutex -/
  | lock (call : Call C)
  /-- the operation, with the mutex locked -/
  | body (call : Call C)
  /-- in `reportError`, to count the error if it is critical -/
  | countCritical (error : ErrorInfo)
  /-- to store it -/
  | store (error : ErrorInfo)
  /-- to invoke the callback, if there is one -/
  | invoke (error : ErrorInfo)
  | unlock
  deriving DecidableEq, Repr

/-- A thread, and the errors whose callbacks it is in. -/
structure Thread (C : Type*) where
  act : Act C := .own
  callbacks : List ErrorInfo := []
  deriving DecidableEq, Repr

end ErrorHandler

/-- `ErrorHandler`, and its threads. -/
structure ErrorHandler (T C : Type*) where
  max_errors_ : ℕ
  errors_ : List ErrorInfo := []
  error_count_ : UInt64 := 0
  critical_error_count_ : UInt64 := 0
  error_callback_ : Option C := none
  recovery_callback_ : Option C := none
  errors_mutex_ : Option T := none
  threads : T → ErrorHandler.Thread C := fun _ => {}

namespace ErrorHandler

variable {T C : Type*} [DecidableEq T]

/-- `trimErrorsIfNeeded()`. -/
def trimErrorsIfNeeded (max_errors : ℕ) (errors : List ErrorInfo) : List ErrorInfo :=
  if max_errors < errors.length then errors.drop (errors.length - max_errors) else errors

/-- `hasCriticalErrors()`, which does not lock. -/
def hasCriticalErrors (s : ErrorHandler T C) : Bool := s.critical_error_count_ != 0

/-- `getLastError()`: the default error when there is none. -/
def getLastError (s : ErrorHandler T C) : ErrorInfo := s.errors_.getLast?.getD {}

/-- A thread goes on to something else. -/
def goto (s : ErrorHandler T C) (t : T) (act : Act C) : ErrorHandler T C :=
  { s with threads := Function.update s.threads t { s.threads t with act := act } }

/-- The first step of an operation, with the mutex locked. -/
def begin (s : ErrorHandler T C) (t : T) : Call C → ErrorHandler T C
  | .reportError error => { s with error_count_ := s.error_count_ + 1 }.goto t (.countCritical error)
  | .clearErrors => { s with errors_ := [] }.goto t .unlock
  | .read _ => s.goto t .unlock
  | .setErrorCallback callback => { s with error_callback_ := callback }.goto t .unlock
  | .setRecoveryCallback callback => { s with recovery_callback_ := callback }.goto t .unlock

/-- The callback of this error begins. -/
def enter (s : ErrorHandler T C) (t : T) (error : ErrorInfo) : ErrorHandler T C :=
  { s with threads := Function.update s.threads t ⟨.own, error :: (s.threads t).callbacks⟩ }

/-- The next step of a thread in an operation; it locks the mutex when it is free. -/
def stepThread (s : ErrorHandler T C) (t : T) : Option (ErrorHandler T C) :=
  match (s.threads t).act with
  | .own => none
  | .lock call =>
    if s.errors_mutex_.isNone then some ({ s with errors_mutex_ := some t }.goto t (.body call))
    else none
  | .body call => some (s.begin t call)
  | .countCritical error =>
    if error.isCritical then
      some ({ s with critical_error_count_ := s.critical_error_count_ + 1 }.goto t (.store error))
    else some (s.goto t (.store error))
  | .store error =>
    some ({ s with
      errors_ := trimErrorsIfNeeded s.max_errors_ (s.errors_ ++ [error]) }.goto t (.invoke error))
  | .invoke error =>
    if s.error_callback_.isSome then some (s.enter t error) else some (s.goto t .unlock)
  | .unlock => some ({ s with errors_mutex_ := none }.goto t .own)

/-- What happens next. -/
inductive Label (T C : Type*)
  /-- a thread calls an operation that locks, from a callback if it is in one -/
  | call (t : T) (call : Call C)
  /-- a thread calls an operation that does not lock, such as `hasCriticalErrors` -/
  | count (t : T)
  | step (t : T)
  /-- a callback returns, or throws -/
  | callbackReturns (t : T)
  deriving DecidableEq, Repr

/-- The callback that a thread is in is over. -/
def leave (s : ErrorHandler T C) (t : T) : Option (ErrorHandler T C) :=
  match s.threads t with
  | ⟨.own, _ :: callbacks⟩ =>
    some { s with threads := Function.update s.threads t ⟨.unlock, callbacks⟩ }
  | _ => none

/-- A step. -/
def step (s : ErrorHandler T C) : Label T C → Option (ErrorHandler T C)
  | .call t call =>
    match (s.threads t).act with
    | .own => some (s.goto t (.lock call))
    | _ => none
  | .count t =>
    match (s.threads t).act with
    | .own => some s
    | _ => none
  | .step t => s.stepThread t
  | .callbackReturns t => s.leave t

/-- The handler, from its construction on; `T` are the threads and `C` the callbacks. -/
def handler (T C : Type*) [DecidableEq T] (max_errors : ℕ) :
    Machine (ErrorHandler T C) (Label T C) where
  init s := s = { max_errors_ := max_errors }
  step := step

/-! ## What is reported, and to whom -/

/-- The run so far. -/
structure History where
  /-- the errors reported since the last `clearErrors` -/
  reported : List ErrorInfo := []
  /-- the errors stored while a callback was set -/
  due : List ErrorInfo := []
  /-- the errors that the callback was invoked for -/
  invoked : List ErrorInfo := []
  deriving DecidableEq, Repr

/-- What the step of a thread adds to the run. -/
def recordStep (s : ErrorHandler T C) (h : History) : Act C → History
  | .body (.reportError error) => { h with reported := h.reported ++ [error] }
  | .body .clearErrors => { h with reported := [] }
  | .store error => if s.error_callback_.isSome then { h with due := h.due ++ [error] } else h
  | .invoke error =>
    if s.error_callback_.isSome then { h with invoked := h.invoked ++ [error] } else h
  | _ => h

/-- What a step adds to the run. -/
def record (s : ErrorHandler T C) (a : Label T C) (_ : ErrorHandler T C) (h : History) : History :=
  match a with
  | .step t => recordStep s h (s.threads t).act
  | _ => h

/-- The handler, with the run so far. -/
def observed (T C : Type*) [DecidableEq T] (max_errors : ℕ) :
    Machine (ErrorHandler T C × History) (Label T C) :=
  (handler T C max_errors).withHistory {} record

/-- A report has been counted but is not stored yet. -/
def Act.storing : Act C → Bool
  | countCritical _ => true
  | store _ => true
  | _ => false

/-- A report is stored, and its callback not invoked yet. -/
def Act.invoking : Act C → Bool
  | invoke _ => true
  | _ => false

/-- **What the handler promises.** -/
structure Sound (max_errors : ℕ) (p : ErrorHandler T C × History) : Prop where
  /-- no call waits for the mutex that its own thread holds -/
  unblocked : ∀ t call, p.1.errors_mutex_ = some t → (p.1.threads t).act ≠ .lock call
  /-- the errors stored are the last ones reported -/
  retained : (∀ t, (p.1.threads t).act.storing = false) →
    p.1.errors_ = p.2.reported.rtake (min p.2.reported.length max_errors)
  /-- the callback is invoked once for each error that was stored -/
  notified : (∀ t, (p.1.threads t).act.invoking = false) → p.2.invoked = p.2.due
  critical : p.1.hasCriticalErrors = true → ∃ e ∈ p.2.reported, e.isCritical = true

/-- **The condition**: nobody calls an operation that locks from a callback, or clears the errors
after a critical one was counted. -/
def Careful (p : ErrorHandler T C × History) : Label T C → Prop
  | .call t _ => (p.1.threads t).callbacks = []
  | .step t => (p.1.threads t).act = .body .clearErrors → p.1.critical_error_count_ = 0
  | _ => True

/-! ## The invariant -/

/-- The thread has the mutex at this point of an operation. -/
def Act.locked : Act C → Bool
  | own => false
  | lock _ => false
  | _ => true

/-- The thread has the mutex. -/
def Thread.holds (thread : Thread C) : Bool := thread.act.locked || !thread.callbacks.isEmpty

/-- What the thread with the mutex is about to do. -/
def now (s : ErrorHandler T C) : Act C := s.errors_mutex_.elim .own fun t => (s.threads t).act

/-- The error that is reported and not stored yet. -/
def Act.pending : Act C → List ErrorInfo
  | countCritical error => [error]
  | store error => [error]
  | _ => []

/-- The error that the callback, if there is one, is still to be invoked for. -/
def Act.owed (callback : Option C) : Act C → List ErrorInfo
  | invoke error => if callback.isSome then [error] else []
  | _ => []

/-- The errors stored are the last ones but for the pending one, and the callback was invoked for
all that it is due but for the one owed. -/
structure Books (s : ErrorHandler T C) (h : History) (act : Act C) : Prop where
  stored : ∃ errors, h.reported = errors ++ act.pending ∧ s.errors_ = errors.rtake s.max_errors_
  invoked : h.due = h.invoked ++ act.owed s.error_callback_

/-- What holds throughout a run. -/
structure Inv (max_errors : ℕ) (p : ErrorHandler T C × History) : Prop where
  owns : Owns p.1.errors_mutex_ p.1.threads Thread.holds
  /-- a thread that is in a callback is in one, and in no operation that locks -/
  nested : ∀ t, (p.1.threads t).callbacks = [] ∨ ∃ e, p.1.threads t = ⟨.own, [e]⟩
  max : p.1.max_errors_ = max_errors
  books : Books p.1 p.2 p.1.now
  critical : p.1.critical_error_count_ ≠ 0 → ∃ e ∈ p.2.reported, e.isCritical = true

variable {s s' : ErrorHandler T C} {h h' : History} {t u : T} {max_errors : ℕ} {thread : Thread C}
  {p q : ErrorHandler T C × History}

omit [DecidableEq T] in
theorem Inv.now_of_holds (hi : Inv max_errors (s, h)) (ht : (s.threads t).holds = true) :
    s.now = (s.threads t).act := by
  have howner : s.errors_mutex_ = some t := (hi.owns t).mp ht
  rw [now, howner, Option.elim_some]

theorem trimErrorsIfNeeded_eq (max_errors : ℕ) (errors : List ErrorInfo) :
    trimErrorsIfNeeded max_errors errors = errors.rtake max_errors := by
  unfold trimErrorsIfNeeded
  split_ifs with hlt
  · rfl
  · rw [rtake_of_length_le (not_lt.mp hlt)]

/-- **The rule of a step**: one thread moves, and keeps the mutex, takes it or gives it back. -/
theorem Inv.move (hi : Inv max_errors (s, h))
    (hthreads : s'.threads = Function.update s.threads t thread)
    (hmove : MovesLock t s.errors_mutex_ s'.errors_mutex_ (s.threads t).holds thread.holds)
    (hnested : thread.callbacks = [] ∨ ∃ e, thread = ⟨.own, [e]⟩) (hmax : s'.max_errors_ = s.max_errors_)
    (hbooks : Books s' h' s'.now)
    (hcritical : s'.critical_error_count_ ≠ 0 → ∃ e ∈ h'.reported, e.isCritical = true) :
    Inv max_errors (s', h') where
  owns := by
    change Owns s'.errors_mutex_ s'.threads Thread.holds
    rw [hthreads]
    exact hi.owns.step hmove
  nested u := by
    change (s'.threads u).callbacks = [] ∨ ∃ e, s'.threads u = ⟨.own, [e]⟩
    rw [hthreads]
    by_cases hut : u = t
    · subst hut
      rwa [Function.update_self]
    · rw [Function.update_of_ne hut]
      exact hi.nested u
  max := hmax.trans hi.max
  books := hbooks
  critical := hcritical

/-- Where the thread that moves has the mutex afterwards, it is at its own point. -/
theorem now_of_owner (hthreads : s'.threads = Function.update s.threads t thread)
    (howner : s'.errors_mutex_ = some t) : s'.now = thread.act := by
  rw [now, howner, Option.elim_some, hthreads, Function.update_self]

/-- Where another thread moves, or nobody has the mutex, it is as before. -/
theorem now_of_not_owner (hthreads : s'.threads = Function.update s.threads t thread)
    (hmutex : s'.errors_mutex_ = s.errors_mutex_) (hne : s.errors_mutex_ ≠ some t) :
    s'.now = s.now := by
  rw [now, now, hmutex]
  cases howner : s.errors_mutex_ with
  | none => rfl
  | some u =>
    have hut : u ≠ t := fun heq => hne (by rw [howner, heq])
    rw [Option.elim_some, Option.elim_some, hthreads, Function.update_of_ne hut]

omit [DecidableEq T] in
theorem Thread.holds_of_locked (hlocked : thread.act.locked = true) : thread.holds = true := by
  rw [holds, hlocked, Bool.true_or]

omit [DecidableEq T] in
/-- In an operation that has the mutex a thread is in no callback. -/
theorem Inv.callbacks_nil (hi : Inv max_errors (s, h)) (hact : (s.threads t).act ≠ .own) :
    (s.threads t).callbacks = [] := by
  rcases hi.nested t with hnil | ⟨e, hthread⟩
  · exact hnil
  · exact absurd (congrArg Thread.act hthread) hact

/-- A step of the thread with the mutex that keeps it. -/
theorem Inv.keep (hi : Inv max_errors (s, h)) (ht : (s.threads t).holds = true)
    (hthreads : s'.threads = Function.update s.threads t thread)
    (hmutex : s'.errors_mutex_ = s.errors_mutex_) (hholds : thread.holds = true)
    (hnested : thread.callbacks = [] ∨ ∃ e, thread = ⟨.own, [e]⟩) (hmax : s'.max_errors_ = s.max_errors_)
    (hbooks : Books s h (s.threads t).act → Books s' h' thread.act)
    (hcritical : s'.critical_error_count_ ≠ 0 → ∃ e ∈ h'.reported, e.isCritical = true) :
    Inv max_errors (s', h') := by
  have howner : s'.errors_mutex_ = some t := hmutex.trans ((hi.owns t).mp ht)
  have hkeep : MovesLock t s.errors_mutex_ s'.errors_mutex_ (s.threads t).holds thread.holds := by
    rw [hmutex, ht, hholds]
    exact .keep
  refine hi.move hthreads hkeep hnested hmax ?_ hcritical
  have hnow : s.now = (s.threads t).act := hi.now_of_holds ht
  rw [now_of_owner hthreads howner]
  exact hbooks (hnow ▸ hi.books)

omit [DecidableEq T] in
/-- A point where no error is pending and no callback is owed is as good as another. -/
theorem Books.quiet {act act' : Act C} (hb : Books s h act) (hpending : act.pending = [])
    (howed : act.owed s.error_callback_ = []) (hpending' : act'.pending = [])
    (howed' : act'.owed s'.error_callback_ = []) (herrors : s'.errors_ = s.errors_)
    (hmax : s'.max_errors_ = s.max_errors_) : Books s' h act' := by
  obtain ⟨⟨errors, hreported, hstored⟩, hinvoked⟩ := hb
  rw [hpending] at hreported
  rw [howed] at hinvoked
  refine ⟨⟨errors, ?_, ?_⟩, ?_⟩
  · rw [hpending', hreported]
  · rw [herrors, hstored, hmax]
  · rw [howed', hinvoked]

/-- The first step of an operation. -/
theorem Inv.begin (hi : Inv max_errors (s, h)) {call : Call C}
    (hact : (s.threads t).act = .body call)
    (hclear : call = .clearErrors → s.critical_error_count_ = 0) :
    Inv max_errors (s.begin t call, recordStep s h (.body call)) := by
  have hlocked : (s.threads t).holds = true := Thread.holds_of_locked (by rw [hact]; rfl)
  have hnil := hi.callbacks_nil (t := t) (by rw [hact]; simp)
  cases call with
  | reportError error =>
    refine hi.keep hlocked rfl rfl (Thread.holds_of_locked rfl) (.inl hnil) rfl (fun hb => ?_)
      fun hcount => ?_
    · rw [hact] at hb
      obtain ⟨⟨errors, hreported, hstored⟩, hinvoked⟩ := hb
      have hall : h.reported = errors := hreported.trans (List.append_nil errors)
      exact ⟨⟨errors, congrArg (· ++ [error]) hall, hstored⟩, hinvoked⟩
    · obtain ⟨e, he, hcritical⟩ := hi.critical hcount
      exact ⟨e, List.mem_append_left _ he, hcritical⟩
  | clearErrors =>
    refine hi.keep hlocked rfl rfl (Thread.holds_of_locked rfl) (.inl hnil) rfl (fun hb => ?_)
      fun hcount => absurd (hclear rfl) hcount
    rw [hact] at hb
    refine ⟨⟨[], rfl, ?_⟩, hb.invoked⟩
    exact (rtake_of_length_le (Nat.zero_le _)).symm
  | _ =>
    refine hi.keep hlocked rfl rfl (Thread.holds_of_locked rfl) (.inl hnil) rfl (fun hb => ?_)
      hi.critical
    rw [hact] at hb
    exact hb.quiet rfl rfl rfl rfl rfl rfl

/-- The mutex is free, and is locked. -/
theorem Inv.lock (hi : Inv max_errors (s, h)) {call : Call C}
    (hact : (s.threads t).act = .lock call) (hfree : s.errors_mutex_ = none) :
    Inv max_errors ({ s with errors_mutex_ := some t }.goto t (.body call), h) := by
  have hnil := hi.callbacks_nil (t := t) (by rw [hact]; simp)
  have hown : s.now = .own := by rw [now, hfree, Option.elim_none]
  have hbooks : Books s h .own := hown ▸ hi.books
  refine hi.move (t := t) rfl ?_ (.inl hnil) rfl ?_ hi.critical
  · rw [hfree]
    exact .lock
  · rw [now_of_owner rfl rfl]
    exact hbooks.quiet rfl rfl rfl rfl rfl rfl

section Holder

variable {error : ErrorInfo}

omit [DecidableEq T] in
/-- The holder's books. -/
theorem Inv.books_of_act (hi : Inv max_errors (s, h)) {act : Act C}
    (hact : (s.threads t).act = act) (hlocked : act.locked = true) :
    (s.threads t).holds = true ∧ (s.threads t).callbacks = [] ∧ Books s h act := by
  subst hact
  have hholds : (s.threads t).holds = true := Thread.holds_of_locked hlocked
  have hne : (s.threads t).act ≠ .own := by
    intro hown
    rw [hown] at hlocked
    cases hlocked
  exact ⟨hholds, hi.callbacks_nil hne, hi.now_of_holds hholds ▸ hi.books⟩

/-- The error is counted, as critical if it is. -/
theorem Inv.countCritical (hi : Inv max_errors (s, h))
    (hact : (s.threads t).act = .countCritical error) {count : UInt64}
    (hcount : error.isCritical = false → count = s.critical_error_count_) :
    Inv max_errors ({ s with critical_error_count_ := count }.goto t (.store error), h) := by
  obtain ⟨hholds, hnil, hbooks⟩ := hi.books_of_act hact rfl
  refine hi.keep hholds rfl rfl (Thread.holds_of_locked rfl) (.inl hnil) rfl
    (fun _ => ⟨hbooks.stored, hbooks.invoked⟩) fun hne => ?_
  cases hcritical : error.isCritical with
  | false =>
    change count ≠ 0 at hne
    rw [hcount hcritical] at hne
    exact hi.critical hne
  | true =>
    obtain ⟨errors, hreported, -⟩ := hbooks.stored
    have hmem : error ∈ h.reported := by
      rw [hreported]
      exact List.mem_append_right errors (List.mem_singleton_self error)
    exact ⟨error, hmem, hcritical⟩

/-- The error is stored. -/
theorem Inv.store (hi : Inv max_errors (s, h)) (hact : (s.threads t).act = .store error) :
    Inv max_errors ({ s with
      errors_ := trimErrorsIfNeeded s.max_errors_ (s.errors_ ++ [error]) }.goto t (.invoke error),
      recordStep s h (.store error)) := by
  obtain ⟨hholds, hnil, ⟨errors, hreported, hstored⟩, hinvoked⟩ := hi.books_of_act hact rfl
  have hdue : h.due = h.invoked := hinvoked.trans (List.append_nil h.invoked)
  have hsame : (recordStep s h (.store error)).reported = h.reported := by
    unfold recordStep
    split_ifs <;> rfl
  refine hi.keep hholds rfl rfl (Thread.holds_of_locked rfl) (.inl hnil) rfl (fun _ => ?_) ?_
  · refine ⟨⟨errors ++ [error], ?_, ?_⟩, ?_⟩
    · rw [hsame, hreported]
      exact (List.append_nil _).symm
    · change trimErrorsIfNeeded s.max_errors_ (s.errors_ ++ [error]) = _
      rw [trimErrorsIfNeeded_eq, hstored, rtake_rtake_concat]
      rfl
    · change _ = _ ++ (if s.error_callback_.isSome then [error] else [])
      unfold recordStep
      split_ifs
      · exact congrArg (· ++ [error]) hdue
      · exact hinvoked
  · rw [hsame]
    exact hi.critical

/-- The callback is invoked. -/
theorem Inv.enter (hi : Inv max_errors (s, h)) (hact : (s.threads t).act = .invoke error)
    (hcallback : s.error_callback_.isSome = true) :
    Inv max_errors (s.enter t error, recordStep s h (.invoke error)) := by
  obtain ⟨hholds, hnil, hstored, hinvoked⟩ := hi.books_of_act hact rfl
  rw [recordStep, if_pos hcallback]
  refine hi.keep hholds rfl rfl rfl (.inr ⟨error, by rw [hnil]⟩) rfl (fun _ => ⟨hstored, ?_⟩)
    hi.critical
  rw [hinvoked, Act.owed, if_pos hcallback]
  exact (List.append_nil _).symm

/-- There is no callback. -/
theorem Inv.skip (hi : Inv max_errors (s, h)) (hact : (s.threads t).act = .invoke error)
    (hcallback : ¬ s.error_callback_.isSome = true) :
    Inv max_errors (s.goto t .unlock, recordStep s h (.invoke error)) := by
  obtain ⟨hholds, hnil, hbooks⟩ := hi.books_of_act hact rfl
  rw [recordStep, if_neg hcallback]
  refine hi.keep hholds rfl rfl (Thread.holds_of_locked rfl) (.inl hnil) rfl (fun _ => ?_)
    hi.critical
  exact hbooks.quiet rfl (if_neg hcallback) rfl rfl rfl rfl

/-- The mutex is unlocked. -/
theorem Inv.unlock (hi : Inv max_errors (s, h)) (hact : (s.threads t).act = .unlock) :
    Inv max_errors ({ s with errors_mutex_ := none }.goto t .own, h) := by
  obtain ⟨hholds, hnil, hbooks⟩ := hi.books_of_act hact rfl
  refine hi.move (t := t) rfl ?_ (.inl hnil) rfl (hbooks.quiet rfl rfl rfl rfl rfl rfl) hi.critical
  have howner : s.errors_mutex_ = some t := (hi.owns t).mp hholds
  have hfree : (⟨.own, (s.threads t).callbacks⟩ : Thread C).holds = false := by
    rw [hnil]
    rfl
  change MovesLock t s.errors_mutex_ none (s.threads t).holds _
  rw [howner, hholds]
  exact hfree ▸ .unlock

end Holder

/-- **The step of a thread** in an operation. -/
theorem Inv.stepThread (hi : Inv max_errors (s, h))
    (hclear : (s.threads t).act = .body .clearErrors → s.critical_error_count_ = 0)
    (hstep : s.stepThread t = some s') :
    Inv max_errors (s', recordStep s h (s.threads t).act) := by
  unfold ErrorHandler.stepThread at hstep
  cases hact : (s.threads t).act with
  | own =>
    rw [hact] at hstep
    cases hstep
  | lock call =>
    rw [hact] at hstep
    obtain ⟨hfree, rfl⟩ := guarded hstep
    exact hi.lock hact (Option.isNone_iff_eq_none.mp hfree)
  | body call =>
    rw [hact] at hstep hclear
    obtain ⟨⟩ := hstep
    exact hi.begin hact fun hcall => hclear (congrArg Act.body hcall)
  | countCritical error =>
    rw [hact] at hstep
    change (if error.isCritical then _ else _) = _ at hstep
    split_ifs at hstep with hcritical
    · obtain ⟨⟩ := hstep
      exact hi.countCritical hact fun hnot => absurd hcritical (by rw [hnot]; simp)
    · obtain ⟨⟩ := hstep
      exact hi.countCritical hact fun _ => rfl
  | store error =>
    rw [hact] at hstep
    obtain ⟨⟩ := hstep
    exact hi.store hact
  | invoke error =>
    rw [hact] at hstep
    change (if s.error_callback_.isSome then _ else _) = _ at hstep
    split_ifs at hstep with hcallback
    · obtain ⟨⟩ := hstep
      exact hi.enter hact hcallback
    · obtain ⟨⟩ := hstep
      exact hi.skip hact hcallback
  | unlock =>
    rw [hact] at hstep
    obtain ⟨⟩ := hstep
    exact hi.unlock hact

/-- A call from outside any callback. -/
theorem Inv.call (hi : Inv max_errors (s, h)) (hact : (s.threads t).act = .own)
    (hnil : (s.threads t).callbacks = []) (call : Call C) :
    Inv max_errors (s.goto t (.lock call), h) := by
  have hout : (s.threads t).holds = false := by
    rw [Thread.holds, hact, hnil]
    rfl
  have hlock : (⟨.lock call, (s.threads t).callbacks⟩ : Thread C).holds = false := by
    rw [hnil]
    rfl
  have hne : s.errors_mutex_ ≠ some t := by
    intro howner
    rw [(hi.owns t).mpr howner] at hout
    cases hout
  refine hi.move (t := t) rfl ?_ (.inl hnil) rfl ?_ hi.critical
  · rw [hout]
    exact hlock ▸ .keep
  · have hnow : (s.goto t (.lock call)).now = s.now := now_of_not_owner rfl rfl hne
    rw [hnow]
    exact ⟨hi.books.stored, hi.books.invoked⟩

/-- A callback is over. -/
theorem Inv.leave (hi : Inv max_errors (s, h)) (hstep : s.leave t = some s') :
    Inv max_errors (s', h) := by
  unfold ErrorHandler.leave at hstep
  split at hstep
  next error callbacks hthread =>
    obtain ⟨⟩ := hstep
    have hnil : callbacks = [] := by
      rcases hi.nested t with hnil | ⟨e, hown⟩
      · rw [hthread] at hnil
        cases hnil
      · rw [hthread] at hown
        cases hown
        rfl
    have hholds : (s.threads t).holds = true := by
      rw [hthread]
      rfl
    refine hi.keep hholds rfl rfl (Thread.holds_of_locked rfl) (.inl hnil) rfl (fun hb => ?_)
      hi.critical
    rw [hthread] at hb
    exact hb.quiet rfl rfl rfl rfl rfl rfl
  next => cases hstep

/-- **One step** of a careful run. -/
theorem Inv.step (hi : Inv max_errors p) {a : Label T C} (hcareful : Careful p a)
    (hstep : (observed T C max_errors).step p a = some q) : Inv max_errors q := by
  obtain ⟨s, h⟩ := p
  obtain ⟨s', h'⟩ := q
  obtain ⟨hs, hh⟩ := Machine.withHistory_step.mp hstep
  obtain rfl : record s a s' h = h' := hh
  change s.step a = some s' at hs
  cases a with
  | call t call =>
    rw [ErrorHandler.step] at hs
    split at hs
    next hact =>
      obtain ⟨⟩ := hs
      exact hi.call hact hcareful call
    next => cases hs
  | count t =>
    rw [ErrorHandler.step] at hs
    split at hs
    next =>
      obtain ⟨⟩ := hs
      exact hi
    next => cases hs
  | step t => exact hi.stepThread hcareful hs
  | callbackReturns t => exact hi.leave hs

omit [DecidableEq T] in
theorem inv_init (max_errors : ℕ) :
    Inv max_errors (({ max_errors_ := max_errors } : ErrorHandler T C), ({} : History)) where
  owns _ := iff_of_false (by simp [Thread.holds, Act.locked]) (by simp)
  nested _ := .inl rfl
  max := rfl
  books := ⟨⟨[], rfl, (rtake_of_length_le (Nat.zero_le _)).symm⟩, rfl⟩
  critical hne := absurd rfl hne

/-! ## The promises -/

omit [DecidableEq T] in
theorem pending_of_not_storing {act : Act C} (h : act.storing = false) : act.pending = [] := by
  cases act with
  | countCritical error => cases h
  | store error => cases h
  | _ => rfl

omit [DecidableEq T] in
theorem owed_of_not_invoking {act : Act C} (h : act.invoking = false) (callback : Option C) :
    act.owed callback = [] := by
  cases act with
  | invoke error => cases h
  | _ => rfl

omit [DecidableEq T] in
/-- What is so wherever a thread may be is so where the one with the mutex is. -/
theorem now_of_all {P : Act C → Prop} (hown : P .own) (hall : ∀ t, P (s.threads t).act) :
    P s.now := by
  unfold now
  cases s.errors_mutex_ with
  | none => exact hown
  | some t => exact hall t

omit [DecidableEq T] in
theorem Inv.sound (hi : Inv max_errors p) : Sound max_errors p where
  unblocked t call howner hact := by
    have hholds : (p.1.threads t).holds = true := (hi.owns t).mpr howner
    have hnil := hi.callbacks_nil (t := t) (by rw [hact]; simp)
    rw [Thread.holds, hact, hnil] at hholds
    cases hholds
  retained hall := by
    obtain ⟨errors, hreported, hstored⟩ := hi.books.stored
    have hpending : p.1.now.pending = [] :=
      pending_of_not_storing (now_of_all (P := fun act => act.storing = false) rfl hall)
    rw [hpending, List.append_nil] at hreported
    rw [rtake_min_length, hreported, hstored, hi.max]
  notified hall := by
    have hinvoked := hi.books.invoked
    have howed := owed_of_not_invoking
      (now_of_all (P := fun act => act.invoking = false) rfl hall) p.1.error_callback_
    rw [howed, List.append_nil] at hinvoked
    exact hinvoked.symm
  critical h := hi.critical (bne_iff_ne.mp h)

/-- **A step that is not careful** breaks a promise. -/
theorem careful_of_sound (hi : Inv max_errors p) {a : Label T C}
    (hstep : (observed T C max_errors).step p a = some q) (hq : Sound max_errors q) :
    Careful p a := by
  obtain ⟨s, h⟩ := p
  obtain ⟨s', h'⟩ := q
  obtain ⟨hs, hh⟩ := Machine.withHistory_step.mp hstep
  obtain rfl : record s a s' h = h' := hh
  change s.step a = some s' at hs
  cases a with
  | call t call =>
    rw [ErrorHandler.step] at hs
    split at hs
    next hact =>
      obtain ⟨⟩ := hs
      -- in a callback the thread has the mutex, and now it waits for it
      by_contra hne
      have hholds : (s.threads t).holds = true := by
        rcases hi.nested t with hnil | ⟨e, hthread⟩
        · exact absurd hnil hne
        · change (s.threads t) = _ at hthread
          rw [hthread]
          rfl
      have howner : s.errors_mutex_ = some t := (hi.owns t).mp hholds
      refine hq.unblocked t call howner ?_
      change (Function.update s.threads t _ t).act = _
      rw [Function.update_self]
    next => cases hs
  | count t => trivial
  | step t =>
    intro hact
    change (s.threads t).act = _ at hact
    change s.stepThread t = some s' at hs
    rw [stepThread, hact] at hs
    obtain ⟨⟩ := hs
    -- nothing is left that was reported
    by_contra hne
    obtain ⟨e, he, -⟩ := hq.critical (bne_iff_ne.mpr hne)
    change e ∈ (recordStep s h (s.threads t).act).reported at he
    rw [hact] at he
    cases he
  | callbackReturns t => trivial

end ErrorHandler

open ErrorHandler

/-- **The handler keeps its promises** in a run exactly if nobody calls an operation that locks from
a callback, or clears the errors after a critical one was counted. -/
theorem errorHandler_sound_iff (T C : Type*) [DecidableEq T] (max_errors : ℕ)
    (as : List (ErrorHandler.Label T C)) :
    (observed T C max_errors).Always (Sound max_errors) ({ max_errors_ := max_errors }, {}) as ↔
      (observed T C max_errors).Allowed Careful ({ max_errors_ := max_errors }, {}) as :=
  Machine.always_iff_allowed_of_invariant (I := Inv max_errors)
    (fun _ _ _ hi hcareful hstep => hi.step hcareful hstep) (fun _ hi => hi.sound)
    (fun _ _ _ hi hstep hq => careful_of_sound hi hstep hq) (inv_init max_errors) as

namespace ErrorHandler

/-- A critical error is reported, to a callback that asks whether there are errors. -/
def asks : List (Label ℕ ℕ) :=
  [.call 0 (.setErrorCallback (some 7)), .step 0, .step 0, .step 0,
    .call 0 (.reportError { severity := .critical }), .step 0, .step 0, .step 0, .step 0, .step 0,
    .call 0 (.read .hasErrors)]

/-- A critical error is reported, and the errors are cleared. -/
def clears : List (Label ℕ ℕ) :=
  [.call 0 (.reportError { severity := .critical }), .step 0, .step 0, .step 0, .step 0, .step 0,
    .step 0, .call 0 .clearErrors, .step 0, .step 0, .step 0]

end ErrorHandler

/-- **The callback waits for its own thread**; and the errors are gone, but critical. -/
theorem errorHandler_unsound :
    (∃ p, (observed ℕ ℕ 1000).Reachable p ∧ p.1.errors_mutex_ = some 0 ∧
      (p.1.threads 0).act = .lock (.read .hasErrors)) ∧
    (∃ p, (observed ℕ ℕ 1000).Reachable p ∧ p.1.hasCriticalErrors = true ∧ p.2.reported = []) ∧
    ¬ ∀ p, (observed ℕ ℕ 1000).Reachable p → Sound 1000 p := by
  have hinit : (observed ℕ ℕ 1000).Reachable ({ max_errors_ := 1000 }, {}) := .init ⟨rfl, rfl⟩
  have hasks : ((observed ℕ ℕ 1000).exec ({ max_errors_ := 1000 }, {}) asks).any
      (fun p => p.1.errors_mutex_ == some 0 && (p.1.threads 0).act == .lock (.read .hasErrors)) =
      true := by
    decide +kernel
  have hclears : ((observed ℕ ℕ 1000).exec ({ max_errors_ := 1000 }, {}) clears).any
      (fun p => p.1.hasCriticalErrors && p.2.reported == []) = true := by
    decide +kernel
  obtain ⟨p, hexec, hp⟩ := (Option.any_eq_true _ _).mp hasks
  obtain ⟨howner, hwaits⟩ := (Bool.and_eq_true _ _).mp hp
  obtain ⟨q, hexec', hq⟩ := (Option.any_eq_true _ _).mp hclears
  obtain ⟨hcritical, hnone⟩ := (Bool.and_eq_true _ _).mp hq
  have hp : (observed ℕ ℕ 1000).Reachable p := Machine.Reachable.exec hinit hexec
  have hq : (observed ℕ ℕ 1000).Reachable q := Machine.Reachable.exec hinit hexec'
  refine ⟨⟨p, hp, beq_iff_eq.mp howner, beq_iff_eq.mp hwaits⟩,
    ⟨q, hq, hcritical, beq_iff_eq.mp hnone⟩, fun hall => ?_⟩
  exact (hall p hp).unblocked 0 _ (beq_iff_eq.mp howner) (beq_iff_eq.mp hwaits)

end AxonVex
