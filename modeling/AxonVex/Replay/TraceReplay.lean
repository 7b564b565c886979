import AxonVex.Configuration.Files
import AxonVex.Core.EventBus
import Mathlib.Data.List.TakeWhile

/-!
# Replay/TraceReplay — the events of a run, in a file and back

    record(event) / clear()  ──▸  entries_  ──saveToFile──▸  file  ──loadFromFile──▸  entries_

A recorder numbers the events since it was last cleared, and gives their times from the first one on.
The writer puts each field of an entry under a name of its own, and the reader reads these names; a
reader that meets an entry it cannot read throws away the ones before it.  So what was saved and is
read in full is what was recorded, in every field (`trace_round_trips`).
-/

namespace AxonVex

/-! ## Reading and comparing values -/

namespace Json

/-- `get<uint64_t>()` and `get<int64_t>()`: throws at what is not a number. -/
def getWord? : Json → Option (BitVec 64)
  | integer z => some (BitVec.ofInt 64 z)
  | float v => some (BitVec.ofInt 64 (v.num.tdiv v.den))
  | _ => none

/-- `get<std::string>()`: throws at what is not a string. -/
def getText? : Json → Option String
  | string s => some s
  | _ => none

mutual

/-- `operator==`: two integers of which one is negative are compared as `int64_t`, an integer and a
float as `double`. -/
def equals : Json → Json → Bool
  | null, null => true
  | boolean a, boolean b => a == b
  | integer a, integer b =>
    if 0 ≤ a ∧ 0 ≤ b then a == b else wrapSigned 64 a == wrapSigned 64 b
  | integer a, float b => (nearestDouble a : ℚ) == b
  | float a, integer b => a == (nearestDouble b : ℚ)
  | float a, float b => a == b
  | string a, string b => a == b
  | array xs, array ys => equalElements xs ys
  | object ms, object ns => equalMembers ms ns
  | _, _ => false

def equalElements : List Json → List Json → Bool
  | [], [] => true
  | x :: xs, y :: ys => equals x y && equalElements xs ys
  | _, _ => false

def equalMembers : List (String × Json) → List (String × Json) → Bool
  | [], [] => true
  | m :: ms, n :: ns => equalMember m n && equalMembers ms ns
  | _, _ => false

def equalMember : String × Json → String × Json → Bool
  | (k, v), (l, w) => k == l && equals v w

end

mutual

/-- Every value equals itself. -/
theorem equals_self : ∀ j : Json, equals j j = true
  | null => by rw [equals]
  | boolean _ => by rw [equals, beq_self_eq_true]
  | integer _ => by rw [equals, beq_self_eq_true, beq_self_eq_true, ite_self]
  | float _ => by rw [equals, beq_self_eq_true]
  | string _ => by rw [equals, beq_self_eq_true]
  | array xs => by rw [equals, equalElements_self xs]
  | object ms => by rw [equals, equalMembers_self ms]

theorem equalElements_self : ∀ xs : List Json, equalElements xs xs = true
  | [] => by rw [equalElements]
  | x :: xs => by rw [equalElements, equals_self x, equalElements_self xs]; rfl

theorem equalMembers_self : ∀ ms : List (String × Json), equalMembers ms ms = true
  | [] => by rw [equalMembers]
  | m :: ms => by rw [equalMembers, equalMember_self m, equalMembers_self ms]; rfl

theorem equalMember_self : ∀ m : String × Json, equalMember m m = true
  | (k, v) => by rw [equalMember, equals_self v, beq_self_eq_true]; rfl

end

end Json

/-! ## Recording -/

/-- A `SystemEvent` with its timestamp, in the nanoseconds of the steady clock. -/
structure StampedEvent extends SystemEvent where
  timestamp : BitVec 64

structure TraceRecordEntry where
  sequence : BitVec 64 := 0
  /-- an `int64_t` -/
  relativeNanos : BitVec 64 := 0
  type : String
  oldState : String
  newState : String
  description : String
  metadata : Json

namespace TraceRecordEntry

/-- `operator==`. -/
def equals (e o : TraceRecordEntry) : Bool :=
  e.sequence == o.sequence && e.relativeNanos == o.relativeNanos && e.type == o.type &&
    e.oldState == o.oldState && e.newState == o.newState && e.description == o.description &&
      e.metadata.equals o.metadata

theorem equals_self (e : TraceRecordEntry) : e.equals e = true := by
  simp only [equals, beq_self_eq_true, Json.equals_self, Bool.and_true]

end TraceRecordEntry

/-- `max_size()` of the entries: those of 160 bytes that fit into half of the address space. -/
def maxEntries : ℕ := (2 ^ 63 - 1) / 160

structure TraceRecorder where
  entries_ : List TraceRecordEntry := []
  nextSeq_ : BitVec 64 := 0
  t0_ : BitVec 64 := 0
  hasT0_ : Bool := false

namespace TraceRecorder

def typeString : SystemEventType → String
  | .stateChange => "STATE_CHANGE"
  | .processingUnitAdded => "PROCESSING_UNIT_ADDED"
  | .processingUnitRemoved => "PROCESSING_UNIT_REMOVED"
  | .processingUnitError => "PROCESSING_UNIT_ERROR"
  | .performanceAlert => "PERFORMANCE_ALERT"
  | .configurationChanged => "CONFIGURATION_CHANGED"
  | .recoveryStarted => "RECOVERY_STARTED"
  | .recoveryCompleted => "RECOVERY_COMPLETED"
  | .healthCheck => "HEALTH_CHECK"
  | .shutdownRequested => "SHUTDOWN_REQUESTED"

/-- The entry of an event. -/
def entryOf (sequence t0 : BitVec 64) (event : StampedEvent) : TraceRecordEntry where
  sequence := sequence
  relativeNanos := event.timestamp - t0
  type := typeString event.type
  oldState := event.oldState.toString
  newState := event.newState.toString
  description := event.description
  metadata :=
    event.metadata.foldl (fun metadata kv => metadata.put kv.1 (.string kv.2)) Json.emptyObject

/-- `push_back` throws at a vector that cannot grow. -/
def pushBack (entries : List TraceRecordEntry) (e : TraceRecordEntry) : List TraceRecordEntry :=
  if entries.length < maxEntries then entries ++ [e] else entries

def record (r : TraceRecorder) (event : StampedEvent) : TraceRecorder :=
  let t0 := if r.hasT0_ then r.t0_ else event.timestamp
  { entries_ := pushBack r.entries_ (entryOf r.nextSeq_ t0 event)
    nextSeq_ := r.nextSeq_ + 1
    t0_ := t0
    hasT0_ := true }

def clear (r : TraceRecorder) : TraceRecorder :=
  { r with entries_ := [], nextSeq_ := 0, hasT0_ := false }

/-- A call of some thread; each holds the lock. -/
inductive Call
  | record (event : StampedEvent)
  | clear

def apply (r : TraceRecorder) : Call → TraceRecorder
  | .record event => r.record event
  | .clear => r.clear

/-- The recorder after these calls. -/
def after (calls : List Call) : TraceRecorder := calls.foldl apply {}

/-- The events that were recorded since the last `clear()`. -/
def sinceClear (calls : List Call) : List StampedEvent :=
  calls.foldl (fun events call => match call with
    | .record event => events ++ [event]
    | .clear => []) []

/-! ### What is recorded -/

/-- The time of the first event. -/
def firstTime : List StampedEvent → BitVec 64
  | [] => 0
  | event :: _ => event.timestamp

/-- **The trace of a list of events**: numbered in their order, and timed from the first one on. -/
def trace (events : List StampedEvent) : List TraceRecordEntry :=
  events.mapIdx fun i event => entryOf (BitVec.ofNat 64 i) (firstTime events) event

/-- The recorder holds the trace of the events since the last `clear()`. -/
structure Holds (r : TraceRecorder) (events : List StampedEvent) : Prop where
  entries : r.entries_ = (trace events).take maxEntries
  nextSeq : r.nextSeq_ = BitVec.ofNat 64 events.length
  hasT0 : r.hasT0_ = !events.isEmpty
  t0 : events ≠ [] → r.t0_ = firstTime events

variable {r : TraceRecorder} {events : List StampedEvent}

theorem length_trace (events : List StampedEvent) : (trace events).length = events.length :=
  List.length_mapIdx

/-- A later event leaves the trace of the ones before it. -/
theorem trace_concat (events : List StampedEvent) (event : StampedEvent) :
    trace (events ++ [event]) = trace events ++
      [entryOf (BitVec.ofNat 64 events.length) (firstTime (events ++ [event])) event] := by
  cases events with
  | nil => rfl
  | cons first rest => exact List.mapIdx_concat

theorem pushBack_take (entries : List TraceRecordEntry) (e : TraceRecordEntry) :
    pushBack (entries.take maxEntries) e = (entries ++ [e]).take maxEntries := by
  rw [pushBack, List.length_take]
  rcases Nat.lt_or_ge entries.length maxEntries with hlt | hge
  · rw [if_pos (by omega), List.take_of_length_le hlt.le,
      List.take_of_length_le (by rw [List.length_append, List.length_singleton]; omega)]
  · rw [if_neg (by omega), List.take_append_of_le_length hge]

theorem Holds.record (h : r.Holds events) (event : StampedEvent) :
    (r.record event).Holds (events ++ [event]) := by
  have ht0 : (if r.hasT0_ then r.t0_ else event.timestamp) = firstTime (events ++ [event]) := by
    rw [h.hasT0]
    cases events with
    | nil => rfl
    | cons first rest => exact h.t0 (List.cons_ne_nil _ _)
  refine ⟨?_, ?_, ?_, fun _ => ht0⟩
  · rw [TraceRecorder.record, ht0, h.entries, h.nextSeq, pushBack_take, trace_concat]
  · rw [TraceRecorder.record, h.nextSeq, List.length_append, List.length_singleton, BitVec.ofNat_add]
    rfl
  · rw [List.isEmpty_eq_false_iff.mpr (List.append_ne_nil_of_right_ne_nil _ (List.cons_ne_nil _ _))]
    rfl

theorem Holds.clear (r : TraceRecorder) : r.clear.Holds [] :=
  ⟨rfl, rfl, rfl, fun hne => absurd rfl hne⟩

/-- **After any calls** the recorder holds the trace of the events since the last `clear()`. -/
theorem holds_after (calls : List Call) : (after calls).Holds (sinceClear calls) := by
  induction calls using List.reverseRecOn with
  | nil => exact ⟨rfl, rfl, rfl, fun hne => absurd rfl hne⟩
  | append_singleton calls call ih =>
    rw [after, sinceClear, List.foldl_concat, List.foldl_concat]
    cases call with
    | record event => exact ih.record event
    | clear => exact Holds.clear _

end TraceRecorder

/-! ## The file -/

namespace TraceRecordEntry

/-- The object that is written for an entry. -/
def toJson (e : TraceRecordEntry) : Json :=
  let o := Json.null.put "sequence" (.integer e.sequence.toNat)
  let o := o.put "relativeNanos" (.integer e.relativeNanos.toInt)
  let o := o.put "type" (.string e.type)
  let o := o.put "oldState" (.string e.oldState)
  let o := o.put "newState" (.string e.newState)
  let o := o.put "description" (.string e.description)
  o.put "metadata" e.metadata

/-- The entry that is read from a value, `none` where the reader throws. -/
def fromJson? (o : Json) : Option TraceRecordEntry := do
  let sequence ← (← o.find? "sequence").getWord?
  let relativeNanos ← (← o.find? "relativeNanos").getWord?
  let type ← (← o.find? "type").getText?
  let oldState ← (← o.find? "oldState").getText?
  let newState ← (← o.find? "newState").getText?
  let description ← (← o.find? "description").getText?
  let metadata ← o.find? "metadata"
  return { sequence, relativeNanos, type, oldState, newState, description, metadata }

/-- **What is written for an entry is read as that entry.** -/
theorem fromJson?_toJson (e : TraceRecordEntry) : fromJson? e.toJson = some e := by
  have hsequence : e.toJson.find? "sequence" = some (.integer e.sequence.toNat) := by
    simp [toJson, Json.find?_put_of_ne]
  have hnanos : e.toJson.find? "relativeNanos" = some (.integer e.relativeNanos.toInt) := by
    simp [toJson, Json.find?_put_of_ne]
  have htype : e.toJson.find? "type" = some (.string e.type) := by
    simp [toJson, Json.find?_put_of_ne]
  have hold : e.toJson.find? "oldState" = some (.string e.oldState) := by
    simp [toJson, Json.find?_put_of_ne]
  have hnew : e.toJson.find? "newState" = some (.string e.newState) := by
    simp [toJson, Json.find?_put_of_ne]
  have hdescription : e.toJson.find? "description" = some (.string e.description) := by
    simp [toJson, Json.find?_put_of_ne]
  have hmetadata : e.toJson.find? "metadata" = some e.metadata := by
    simp [toJson]
  have hword : BitVec.ofInt 64 e.sequence.toNat = e.sequence := by
    rw [BitVec.ofInt_natCast, BitVec.ofNat_toNat, BitVec.setWidth_eq]
  simp [fromJson?, hsequence, hnanos, htype, hold, hnew, hdescription, hmetadata, Json.getWord?,
    Json.getText?, hword, BitVec.ofInt_toInt]

end TraceRecordEntry

/-- The texts of the JSON library: `dump(2)`, `none` where it throws, and `parse`. -/
structure TraceText where
  dump : Json → Option (List UInt8)
  parse : List UInt8 → Option Json

/-- The file of a trace as the process finds it. -/
structure TraceFile extends Configuration.File where
  /-- making its directories does not throw -/
  directories : Bool := true
  /-- the stream is good after the text -/
  good : Bool := true

/-- What `saveToFile` returns, and the file that it leaves. -/
structure TraceSaved where
  returned : Bool
  file : TraceFile

namespace TraceRecorder

/-- The array that is written. -/
def document (r : TraceRecorder) : Json := .array (r.entries_.map TraceRecordEntry.toJson)

def saveToFile (json : TraceText) (r : TraceRecorder) (file : TraceFile) : TraceSaved :=
  if file.directories then
    if file.writable then
      let opened := { file with content := some [] }
      match json.dump r.document with
      | none => { returned := false, file := opened }
      | some text =>
        { returned := file.good
          file := { opened with content := some (text.take file.capacity) } }
    else { returned := false, file := file }
  else { returned := false, file := file }

/-- The file takes the whole text and can be read. -/
def WrittenInFull (json : TraceText) (r : TraceRecorder) (file : TraceFile) : Prop :=
  file.readable = true ∧ ∀ text, json.dump r.document = some text → text.length ≤ file.capacity

/-- A save that returns `true` has written the text. -/
theorem saveToFile_returned {json : TraceText} {r : TraceRecorder} {file : TraceFile}
    (hsaved : (r.saveToFile json file).returned = true) :
    ∃ text, json.dump r.document = some text ∧ (r.saveToFile json file).file =
      { file with content := some (text.take file.capacity) } := by
  cases hdirectories : file.directories with
  | false => simp [saveToFile, hdirectories] at hsaved
  | true =>
    cases hwritable : file.writable with
    | false => simp [saveToFile, hdirectories, hwritable] at hsaved
    | true =>
      cases hdump : json.dump r.document with
      | none => simp [saveToFile, hdirectories, hwritable, hdump] at hsaved
      | some text => exact ⟨text, rfl, by simp [saveToFile, hdirectories, hwritable, hdump]⟩

end TraceRecorder

structure TraceReplayer where
  entries_ : List TraceRecordEntry := []

/-- What `loadFromFile` returns, and the replayer that it leaves. -/
structure TraceLoaded where
  returned : Bool
  replayer : TraceReplayer

namespace TraceReplayer

/-- The loop over the array, with the entries so far: `none` where it throws. -/
def readEntries (p : TraceReplayer) : List Json → TraceReplayer × Bool
  | [] => (p, true)
  | o :: os => match TraceRecordEntry.fromJson? o with
    | none => (p, false)
    | some e => readEntries { entries_ := p.entries_ ++ [e] } os

def loadFromFile (json : TraceText) (_ : TraceReplayer) (file : TraceFile) : TraceLoaded :=
  let cleared : TraceReplayer := { entries_ := [] }
  if file.readable then
    match file.content with
    | none => { returned := false, replayer := cleared }
    | some text => match json.parse text with
      | none => { returned := false, replayer := cleared }
      | some arr =>
        if arr.isArray then
          match readEntries cleared arr.elements with
          | (p, true) => { returned := true, replayer := p }
          -- `catch (...)`
          | (_, false) => { returned := false, replayer := { entries_ := [] } }
        else { returned := false, replayer := cleared }
  else { returned := false, replayer := cleared }

/-- `sequencesMatch(recorded, loaded)`. -/
def sequencesMatch (recorded : TraceRecorder) (loaded : TraceReplayer) : Bool :=
  if recorded.entries_.length ≠ loaded.entries_.length then false
  else (recorded.entries_.zip loaded.entries_).all fun ab => ab.1.equals ab.2

/-- The entries are read behind the ones before them. -/
theorem readEntries_map (p : TraceReplayer) (entries : List TraceRecordEntry) :
    p.readEntries (entries.map TraceRecordEntry.toJson) =
      ({ entries_ := p.entries_ ++ entries }, true) := by
  induction entries generalizing p with
  | nil => rw [List.map_nil, readEntries, List.append_nil]
  | cons e entries ih =>
    rw [List.map_cons, readEntries, TraceRecordEntry.fromJson?_toJson]
    change readEntries { entries_ := p.entries_ ++ [e] } _ = _
    rw [ih, List.append_assoc, List.singleton_append]

/-- **A failing load leaves no entries.** -/
theorem loadFromFile_failed {json : TraceText} {p : TraceReplayer} {file : TraceFile}
    (hfailed : (p.loadFromFile json file).returned = false) :
    (p.loadFromFile json file).replayer.entries_ = [] := by
  revert hfailed
  rw [loadFromFile]
  split_ifs
  · split
    · exact fun _ => rfl
    · split
      · exact fun _ => rfl
      · split_ifs
        · split
          · exact fun hreturned => absurd hreturned Bool.noConfusion
          · exact fun _ => rfl
        · exact fun _ => rfl
  · exact fun _ => rfl

/-- A trace matches itself. -/
theorem sequencesMatch_self (r : TraceRecorder) :
    sequencesMatch r { entries_ := r.entries_ } = true := by
  rw [sequencesMatch, if_neg (not_not_intro rfl), List.all_eq_true]
  rintro ⟨a, b⟩ hab
  obtain ⟨i, hi⟩ := List.mem_iff_getElem?.mp hab
  obtain ⟨ha, hb⟩ := List.getElem?_zip_eq_some.mp hi
  have hsame : a = b := Option.some.inj (ha.symm.trans hb)
  subst hsame
  exact a.equals_self

/-- A file that holds the text of a trace is read in full. -/
theorem loadFromFile_of_parse {json : TraceText} {r : TraceRecorder} {p : TraceReplayer}
    {file : TraceFile} {text : List UInt8} (hreadable : file.readable = true)
    (hcontent : file.content = some text) (hparse : json.parse text = some r.document) :
    p.loadFromFile json file = { returned := true, replayer := { entries_ := r.entries_ } } := by
  have hread : readEntries { entries_ := [] } r.document.elements =
      ({ entries_ := r.entries_ }, true) := by
    rw [TraceRecorder.document, Json.elements, readEntries_map, List.nil_append]
  have harray : r.document.isArray = true := rfl
  simp [loadFromFile, hreadable, hcontent, hparse, harray, hread]

end TraceReplayer

namespace TraceRecorder

/-- The entries are numbered in their order. -/
theorem Holds.sequences {r : TraceRecorder} {events : List StampedEvent} (h : r.Holds events) :
    r.entries_.map (fun e => e.sequence.toNat) = List.range r.entries_.length := by
  refine List.ext_getElem? fun i => ?_
  rcases Nat.lt_or_ge i r.entries_.length with hlt | hge
  · have hmax : i < maxEntries := by
      rw [h.entries, List.length_take] at hlt
      omega
    have hentry : r.entries_[i]? = (trace events)[i]? := by
      rw [h.entries, List.getElem?_take_of_lt hmax]
    rw [List.getElem?_map, List.getElem?_range hlt, hentry, trace, List.getElem?_mapIdx]
    have hevent : i < events.length := by
      rw [h.entries, List.length_take, length_trace] at hlt
      omega
    rw [List.getElem?_eq_getElem hevent]
    change some (BitVec.ofNat 64 i).toNat = some i
    have hword : maxEntries < 2 ^ 64 := by decide
    rw [BitVec.toNat_ofNat, Nat.mod_eq_of_lt (hmax.trans hword)]
  · rw [List.getElem?_eq_none (by rw [List.length_map]; exact hge),
      List.getElem?_eq_none (by rw [List.length_range]; exact hge)]

end TraceRecorder

open TraceRecorder TraceReplayer in
/-- **The round trip of a trace.**  After any calls the recorder holds the events since the last
`clear()`, numbered from 0 on; what it saves and the file takes in full is read back in every field,
and matches; and a load that fails leaves no entries. -/
theorem trace_round_trips (json : TraceText) (calls : List TraceRecorder.Call)
    (hjson : ∀ text, json.dump (after calls).document = some text →
      json.parse text = some (after calls).document) :
    (after calls).entries_ = (trace (sinceClear calls)).take maxEntries ∧
      (after calls).entries_.map (fun e => e.sequence.toNat) =
        List.range (after calls).entries_.length ∧
      (∀ (file : TraceFile) (p : TraceReplayer), WrittenInFull json (after calls) file →
        ((after calls).saveToFile json file).returned = true →
          let loaded := p.loadFromFile json ((after calls).saveToFile json file).file
          loaded.returned = true ∧ loaded.replayer.entries_ = (after calls).entries_ ∧
            sequencesMatch (after calls) loaded.replayer = true) ∧
      ∀ (file : TraceFile) (p : TraceReplayer), (p.loadFromFile json file).returned = false →
        (p.loadFromFile json file).replayer.entries_ = [] := by
  have hholds := holds_after calls
  refine ⟨hholds.entries, hholds.sequences, fun file p hfull hsaved => ?_, fun file p hfailed =>
    loadFromFile_failed hfailed⟩
  obtain ⟨text, hdump, hfile⟩ := saveToFile_returned hsaved
  have hcontent : ((after calls).saveToFile json file).file.content = some text := by
    rw [hfile]
    exact congrArg some (List.take_of_length_le (hfull.2 text hdump))
  have hreadable : ((after calls).saveToFile json file).file.readable = true := by
    rw [hfile]
    exact hfull.1
  intro loaded
  have hloaded : loaded = { returned := true, replayer := { entries_ := (after calls).entries_ } } :=
    loadFromFile_of_parse hreadable hcontent (hjson text hdump)
  rw [hloaded]
  exact ⟨rfl, rfl, sequencesMatch_self _⟩

/-- A system is ready. -/
def readyEvent : StampedEvent where
  type := .stateChange
  oldState := .initializing
  newState := .initialized
  description := "ready"
  metadata := [("k", "v")]
  timestamp := 5

/-- The text of its trace. -/
@[irreducible] def readyText : List UInt8 :=
  ("[\n  \x7b\n    \"description\": \"ready\",\n    \"metadata\": \x7b\n      \"k\": \"v\"\n    \x7d,\n" ++
    "    \"newState\": \"INITIALIZED\",\n    \"oldState\": \"INITIALIZING\",\n" ++
    "    \"relativeNanos\": 0,\n    \"sequence\": 0,\n    \"type\": \"STATE_CHANGE\"\n" ++
    "  \x7d\n]").toList.map fun c => c.toNat.toUInt8

/-- The library on that text. -/
def readyLibrary : TraceText where
  dump _ := some readyText
  parse text := if text = readyText then
      some (.array [.object [("description", .string "ready"),
        ("metadata", .object [("k", .string "v")]), ("newState", .string "INITIALIZED"),
        ("oldState", .string "INITIALIZING"), ("relativeNanos", .integer 0),
        ("sequence", .integer 0), ("type", .string "STATE_CHANGE")]])
    else none

open TraceRecorder TraceReplayer in
/-- The trace of one event is read back. -/
theorem trace_round_trips_ready :
    let recorder := after [.record readyEvent]
    let file : TraceFile := { content := none, capacity := readyText.length }
    let loaded := ({} : TraceReplayer).loadFromFile readyLibrary
      (recorder.saveToFile readyLibrary file).file
    loaded.returned = true ∧ loaded.replayer.entries_ = recorder.entries_ ∧
      sequencesMatch recorder loaded.replayer = true := by
  intro recorder file
  have hjson : ∀ text, readyLibrary.dump recorder.document = some text →
      readyLibrary.parse text = some recorder.document := by
    rintro text htext
    obtain rfl : readyText = text := Option.some.inj htext
    exact if_pos rfl
  have hfull : WrittenInFull readyLibrary recorder file := by
    refine ⟨rfl, fun text htext => ?_⟩
    obtain rfl : readyText = text := Option.some.inj htext
    exact Nat.le_refl readyText.length
  exact (trace_round_trips readyLibrary [.record readyEvent] hjson).2.2.1 file {} hfull rfl

end AxonVex
