import AxonVex.Configuration.Merge
import AxonVex.Configuration.Store

/-!
# Configuration/Updates — documents that are merged into a configuration

`applyUpdates` merges in place and keeps a log of its writes; the callbacks hear of them after the
merge.  The merge throws only before it has written anything, at a root that has no members, and
otherwise it is `Json.merged`, with `Json.leaves` as its log.  `loadFromString` patches the configuration instead.
-/

namespace AxonVex

open Machinery

namespace Configuration

/-! ## The merge -/

/-- An entry of the change log. -/
structure Change where
  key : String
  oldValue : Json
  newValue : Json

/-- The state of a merge: its target, its log, and whether it has thrown. -/
structure Merge where
  target : Json
  changes : List Change := []
  threw : Bool := false

/-- `target[key] = value`, with the log entry; `operator[]` throws at an array and at a primitive
value. -/
def replaceMember (monitoring : Bool) (above : String) (merge : Merge) (key : String)
    (value : Json) : Merge :=
  if merge.target.indexable then
    { target := merge.target.put key value
      changes :=
        if monitoring then
          merge.changes ++ [⟨fullKey above key, (merge.target.find? key).getD .null, value⟩]
        else merge.changes }
  else { merge with threw := true }

mutual

/-- One member of the source. -/
def mergeEntry (monitoring : Bool) : String → Merge → String × Json → Merge
  | above, merge, (key, .object ms) =>
    match merge.target.find? key with
    | some (.object ts) =>
      let inner :=
        mergeEntries monitoring (fullKey above key) { merge with target := .object ts } ms
      { inner with target := merge.target.put key inner.target }
    | _ => replaceMember monitoring above merge key (.object ms)
  | above, merge, (key, value) => replaceMember monitoring above merge key value

/-- The members of the source, up to an exception. -/
def mergeEntries (monitoring : Bool) : String → Merge → List (String × Json) → Merge
  | _, merge, [] => merge
  | above, merge, m :: ms =>
    let next := mergeEntry monitoring above merge m
    if next.threw then next else mergeEntries monitoring above next ms

end

/-- `merge(config_data_, updates, "")`; `key()` throws at the elements of another value than an
object. -/
def mergeRoot (monitoring : Bool) (target : Json) : Json → Merge
  | .object ms => mergeEntries monitoring "" { target } ms
  | .null => { target }
  | .array [] => { target }
  | _ => { target, threw := true }

variable {monitoring : Bool} {above : String} {t v : Json} {k : String}
  {ms : List (String × Json)} {log new : List Change}

/-- The log entry of a write below the node of `above`. -/
def report (above : String) (t : Json) (e : List String × Json) : Change :=
  ⟨e.1.foldl fullKey above, (t.at? e.1).getD .null, e.2⟩

/-- The log with new entries. -/
def logged (monitoring : Bool) (log new : List Change) : List Change :=
  if monitoring then log ++ new else log

theorem logged_logged {more : List Change} :
    logged monitoring (logged monitoring log new) more = logged monitoring log (new ++ more) := by
  cases monitoring with
  | true => exact List.append_assoc log new more
  | false => rfl

/-- The merge of a member does what its spec says. -/
def MergesTo (monitoring : Bool) (above : String) (t : Json) (log : List Change)
    (m : String × Json) : Prop :=
  mergeEntry monitoring above { target := t, changes := log } m =
    { target := Json.mergedMember t m
      changes := logged monitoring log ((Json.leavesMember t m).map (report above t)) }

theorem mergesTo_replaceMember (ht : t.indexable) (hmerged : (((t.find? k).getD .null).merged v) = v)
    (hleaves : Json.leavesMember t (k, v) = [([k], v)])
    (hentry : mergeEntry monitoring above { target := t, changes := log } (k, v) =
      replaceMember monitoring above { target := t, changes := log } k v) :
    MergesTo monitoring above t log (k, v) := by
  have hreport : report above t ([k], v) = ⟨fullKey above k, (t.find? k).getD .null, v⟩ := by
    rw [report, Json.at?_cons]
    cases t.find? k <;> rfl
  rw [MergesTo, hentry, hleaves, Json.mergedMember, hmerged, replaceMember, if_pos ht, logged,
    List.map_singleton, hreport]

/-- The entries of other members do not see a merged member. -/
theorem map_report_leaves {m : String × Json} (h : ∀ n ∈ ms, n.1 ≠ m.1) :
    (Json.leaves t ms).map (report above t) =
      (Json.leaves (Json.mergedMember t m) ms).map (report above (Json.mergedMember t m)) := by
  rw [← Json.leaves_congr fun n hn => (Json.find?_mergedMember_of_ne (h n hn)).symm]
  refine List.map_congr_left fun e he => ?_
  obtain ⟨n, hn, he⟩ := Json.mem_leaves.mp he
  obtain ⟨q, hq⟩ := Json.head_of_mem_leavesMember he
  rw [report, report, hq, Json.at?_cons, Json.at?_cons, Json.find?_mergedMember_of_ne (h n hn)]

theorem mergeEntries_of (monitoring : Bool) (above : String) (log : List Change)
    (hms : ∀ m ∈ ms, ∀ (t : Json) (log : List Change), t.Sorted → t.indexable →
      MergesTo monitoring above t log m ∧ (Json.mergedMember t m).Sorted)
    (h : Members.Sorted ms) (ht : t.Sorted) (hindex : t.indexable) :
    mergeEntries monitoring above { target := t, changes := log } ms =
      { target := Json.mergedMembers t ms
        changes := logged monitoring log ((Json.leaves t ms).map (report above t)) } := by
  induction ms generalizing t log with
  | nil =>
    rw [mergeEntries, Json.mergedMembers, Json.leaves, List.map_nil, logged, List.append_nil,
      ite_self]
  | cons m ms ih =>
    obtain ⟨hm, hms⟩ := List.forall_mem_cons.mp hms
    obtain ⟨hlt, hsorted⟩ := List.pairwise_cons.mp h
    obtain ⟨hentry, hsorted'⟩ := hm t log ht hindex
    have hindex' : (Json.mergedMember t m).indexable := by
      rw [Json.mergedMember_eq]
      rfl
    have hsame : (Json.leaves t ms).map (report above t) =
        (Json.leaves (Json.mergedMember t m) ms).map (report above (Json.mergedMember t m)) :=
      map_report_leaves fun n hn => (hlt n hn).ne'
    rw [mergeEntries, hentry]
    simp only [Bool.false_eq_true, if_false]
    rw [ih _ hms hsorted hsorted' hindex', logged_logged, Json.mergedMembers, Json.leaves,
      List.map_append, hsame]

theorem mergesTo (hv : v.Sorted) (ht : t.Sorted) (hindex : t.indexable) :
    MergesTo monitoring above t log (k, v) := by
  induction hv generalizing t k above log with
  | object hms hvs ih =>
    rename_i ms
    by_cases hobject : ∃ ts, t.find? k = some (.object ts)
    · obtain ⟨ts, hts⟩ := hobject
      have hinner := mergeEntries_of monitoring (fullKey above k) log
        (fun m hm t log ht hindex => ⟨ih m hm ht hindex, by
          rw [Json.mergedMember_eq]
          exact ht.put ((hvs m hm).merged ht.getD)⟩) hms (ht.find? hts) rfl
      have hreport (e : List String × Json) :
          report above t (k :: e.1, e.2) = report (fullKey above k) (.object ts) e := by
        rw [report, report, Json.at?_cons, hts]
        rfl
      rw [MergesTo, mergeEntry, Json.mergedMember, Json.leavesMember]
      simp only [hts, hinner, List.map_map]
      have hlog : report above t ∘ (fun e : List String × Json => (k :: e.1, e.2)) =
          report (fullKey above k) (.object ts) := funext hreport
      rw [hlog]
      rfl
    · refine mergesTo_replaceMember hindex (Json.merged_of_not_object ?_) ?_ ?_
      · cases hk : t.find? k with
        | none => rfl
        | some u =>
          cases u with
          | object ts => exact absurd ⟨ts, hk⟩ hobject
          | _ => rfl
      · rw [Json.leavesMember]
        split
        next ts hts => exact absurd ⟨ts, hts⟩ hobject
        · rfl
      · rw [mergeEntry]
        split
        next ts hts => exact absurd ⟨ts, hts⟩ hobject
        · rfl
  | _ =>
    refine mergesTo_replaceMember hindex (Json.merged_of_value rfl) ?_ ?_
    · simp only [Json.leavesMember]
    · simp only [mergeEntry]

/-! ## The root -/

/-- **The merge of an object into a tree, with its log.** -/
theorem mergeRoot_of_indexable (hv : (Json.object ms).Sorted) (hms : ms ≠ []) (ht : t.Sorted)
    (hindex : t.indexable) :
    mergeRoot monitoring t (.object ms) =
      { target := t.merged (.object ms)
        changes := logged monitoring [] ((Json.leaves t ms).map (report "" t)) } := by
  have hmembers (m : String × Json) (hm : m ∈ ms) : m.2.Sorted := hv.of_mem hm
  have hentries := mergeEntries_of monitoring "" []
    (fun m hm t log ht hindex => ⟨mergesTo (hmembers m hm) ht hindex, by
      rw [Json.mergedMember_eq]
      exact ht.put ((hmembers m hm).merged ht.getD)⟩) hv.sorted_members ht hindex
  rw [Json.mergedMembers_eq_merged hv ht hms] at hentries
  exact hentries

/-- A root without members refuses the first one. -/
theorem mergeRoot_of_not_indexable (hms : ms ≠ []) (hindex : t.indexable = false) :
    mergeRoot monitoring t (.object ms) = { target := t, threw := true } := by
  cases ms with
  | nil => exact absurd rfl hms
  | cons m ms =>
    have hnone : t.find? m.1 = none := by
      cases hfind : t.find? m.1 with
      | none => rfl
      | some u =>
        rw [Json.indexable_of_find? hfind] at hindex
        exact absurd hindex (by simp)
    have hentry : mergeEntry monitoring "" { target := t } m = { target := t, threw := true } := by
      obtain ⟨k, v⟩ := m
      have hreplace : replaceMember monitoring "" { target := t } k v =
          { target := t, threw := true } := by
        rw [replaceMember, if_neg (by rw [hindex]; exact Bool.noConfusion)]
      cases v with
      | object vs =>
        rw [mergeEntry]
        simp only [hnone]
        exact hreplace
      | _ =>
        simp only [mergeEntry]
        exact hreplace
    rw [mergeRoot, mergeEntries, hentry]
    rfl

/-- The updates are an object that has members. -/
def HasMembers (v : Json) : Prop := v.members ≠ []

theorem HasMembers.eq_object (h : HasMembers v) : ∃ ms, v = .object ms ∧ ms ≠ [] := by
  cases v with
  | object ms => exact ⟨ms, rfl, h⟩
  | _ => exact absurd rfl h

/-- **What the merge does**: it merges an object that has members, does nothing, or throws at
once. -/
theorem mergeRoot_cases (hv : v.Sorted) (ht : t.Sorted) (monitoring : Bool) :
    (HasMembers v ∧ t.indexable ∧ mergeRoot monitoring t v =
      { target := t.merged v
        changes := logged monitoring [] ((Json.leaves t v.members).map (report "" t)) }) ∨
    (¬ HasMembers v ∧ mergeRoot monitoring t v = { target := t }) ∨
      (v.isObject && t.indexable) = false ∧
        mergeRoot monitoring t v = { target := t, threw := true } := by
  cases v with
  | object ms =>
    by_cases hms : ms = []
    · subst hms
      exact .inr (.inl ⟨not_not.mpr rfl, by rw [mergeRoot, mergeEntries]⟩)
    · cases hindex : t.indexable with
      | true => exact .inl ⟨hms, rfl, mergeRoot_of_indexable hv hms ht hindex⟩
      | false => exact .inr (.inr ⟨rfl, mergeRoot_of_not_indexable hms hindex⟩)
  | array xs =>
    cases xs with
    | nil => exact .inr (.inl ⟨not_not.mpr rfl, rfl⟩)
    | cons x xs => exact .inr (.inr ⟨rfl, rfl⟩)
  | null => exact .inr (.inl ⟨not_not.mpr rfl, rfl⟩)
  | _ => exact .inr (.inr ⟨rfl, rfl⟩)

theorem sorted_mergeRoot (hv : v.Sorted) (ht : t.Sorted) :
    (mergeRoot monitoring t v).target.Sorted := by
  rcases mergeRoot_cases hv ht monitoring with
    ⟨-, -, h⟩ | ⟨-, h⟩ | ⟨-, h⟩
  · rw [h]
    exact hv.merged ht
  · rw [h]
    exact ht
  · rw [h]
    exact ht

/-! ## The calls -/

namespace Store

/-- The merge of the updates into the configuration. -/
def merge (c : Store) (updates : Document) : Merge :=
  mergeRoot c.monitoringEnabled c.configData.1 updates.1

/-- `applyUpdates(updates, validate)`. -/
def applyUpdates (c : Store) (updates : Document) (validate : Bool) : Response :=
  if validate ∧ c.validationEnabled ∧ c.validateInternal updates.1 ≠ [] then
    { returned := false, store := c }
  else
    let merged : Store :=
      { c with configData := ⟨(c.merge updates).target, sorted_mergeRoot updates.2 c.configData.2⟩ }
    if (c.merge updates).threw then { returned := false, store := merged }
    else
      { returned := true
        store := merged
        invoked := (c.merge updates).changes.flatMap fun change =>
          c.notifyCallbacks change.key change.oldValue change.newValue }

/-- `loadFromJson(json_data, merge_with_existing)`. -/
def loadFromJson (c : Store) (jsonData : Document) (mergeWithExisting : Bool) : Response :=
  if c.validationEnabled ∧ c.validateInternal jsonData.1 ≠ [] then
    { returned := false, store := c }
  else
    { returned := true
      store :=
        { c with
          configData :=
            if mergeWithExisting then c.configData.mergePatch jsonData else jsonData } }

/-- `loadFromString(json_string, merge_with_existing)`; a text without a document does not
parse. -/
def loadFromString (parse : String → Option Document) (c : Store) (jsonString : String)
    (mergeWithExisting : Bool) : Response :=
  match parse jsonString with
  | none => { returned := false, store := c }
  | some jsonData => c.loadFromJson jsonData mergeWithExisting

end Store

variable {c : Store} {updates : Document} {validate : Bool}

theorem validateInternal_eq_nil : c.validateInternal v = [] := by
  refine if_neg fun h => absurd h.2 ?_
  cases v <;> exact Bool.noConfusion

namespace Store

/-- What a call of `applyUpdates` returns is what the merge makes of it. -/
theorem applyUpdates_eq :
    c.applyUpdates updates validate =
      if (c.merge updates).threw then
        { returned := false
          store :=
            { c with
              configData := ⟨(c.merge updates).target, sorted_mergeRoot updates.2 c.configData.2⟩ } }
      else
        { returned := true
          store :=
            { c with
              configData := ⟨(c.merge updates).target, sorted_mergeRoot updates.2 c.configData.2⟩ }
          invoked := (c.merge updates).changes.flatMap fun change =>
            c.notifyCallbacks change.key change.oldValue change.newValue } :=
  if_neg fun h => h.2.2 validateInternal_eq_nil

end Store

/-! ## Keys of reported paths -/

/-- Every key of the nested objects is a part of a dotted key. -/
def PlainKeys (v : Json) : Prop := ∀ p, (v.at? p).isSome → ∀ k ∈ p, k ≠ "" ∧ '.' ∉ k.toList

theorem toList_foldl_fullKey {p : List String} {above : String} (h : above ≠ "")
    (hp : ∀ k ∈ p, k ≠ "") :
    (p.foldl fullKey above).toList = ['.'].intercalate (above.toList :: p.map String.toList) := by
  induction p generalizing above with
  | nil => rw [List.foldl_nil, List.map_nil, List.intercalate_singleton]
  | cons k p ih =>
    obtain ⟨hk, hp⟩ := List.forall_mem_cons.mp hp
    have hfull : fullKey above k = above ++ "." ++ k := if_neg (by simpa using h)
    have hne : fullKey above k ≠ "" := by
      rw [hfull]
      intro heq
      have hlen := congrArg String.length heq
      simp at hlen
    rw [List.foldl_cons, ih hne hp, hfull, List.map_cons, List.intercalate_cons_cons]
    cases p with
    | nil => simp
    | cons l p => simp [List.intercalate_cons_cons]

theorem splitKey_foldl_fullKey {p : List String} (hp : p ≠ [])
    (hplain : ∀ k ∈ p, k ≠ "" ∧ '.' ∉ k.toList) : splitKey (p.foldl fullKey "") = p := by
  cases p with
  | nil => exact absurd rfl hp
  | cons k p =>
    have hk : k ≠ "" := (hplain k List.mem_cons_self).1
    have hrest (l : String) (hl : l ∈ p) : l ≠ "" := (hplain l (List.mem_cons_of_mem k hl)).1
    have hfirst : fullKey "" k = k := rfl
    have hdots (part : List Char) (h : part ∈ (k :: p).map String.toList) : '.' ∉ part := by
      obtain ⟨l, hl, rfl⟩ := List.mem_map.mp h
      exact (hplain l hl).2
    have hparts : ((k :: p).map String.toList).filter (fun part => !part.isEmpty) =
        (k :: p).map String.toList := by
      refine List.filter_eq_self.mpr fun part h => ?_
      obtain ⟨l, hl, rfl⟩ := List.mem_map.mp h
      simpa using (hplain l hl).1
    rw [splitKey, List.foldl_cons, hfirst, toList_foldl_fullKey hk hrest, ← List.map_cons,
      List.splitOn_intercalate _ hdots (by simp), hparts, List.map_map]
    simp

namespace Store

/-! ## `applyUpdates` -/

theorem merge_cases (c : Store) (updates : Document) :
    (HasMembers updates.1 ∧ c.configData.1.indexable ∧ c.merge updates =
      { target := c.configData.1.merged updates.1
        changes := logged c.monitoringEnabled []
          ((Json.leaves c.configData.1 updates.1.members).map (report "" c.configData.1)) }) ∨
    (¬ HasMembers updates.1 ∧ c.merge updates = { target := c.configData.1 }) ∨
      (updates.1.isObject && c.configData.1.indexable) = false ∧
        c.merge updates = { target := c.configData.1, threw := true } :=
  mergeRoot_cases updates.2 c.configData.2 c.monitoringEnabled

theorem applyUpdates_of_threw (validate : Bool)
    (h : c.merge updates = { target := c.configData.1, threw := true }) :
    c.applyUpdates updates validate = { returned := false, store := c } := by
  rw [applyUpdates_eq]
  simp only [h]
  rfl

theorem applyUpdates_of_nothing (validate : Bool) (h : c.merge updates = { target := c.configData.1 }) :
    c.applyUpdates updates validate = { returned := true, store := c } := by
  rw [applyUpdates_eq]
  simp only [h]
  rfl

/-- The merged tree, in place of the one before. -/
theorem applyUpdates_of_merged {log : List Change} (validate : Bool)
    (h : c.merge updates = { target := c.configData.1.merged updates.1, changes := log }) :
    c.applyUpdates updates validate =
      { returned := true
        store := { c with configData := ⟨c.configData.1.merged updates.1,
          updates.2.merged c.configData.2⟩ }
        invoked := log.flatMap fun change =>
          c.notifyCallbacks change.key change.oldValue change.newValue } := by
  rw [applyUpdates_eq]
  simp only [h]
  rfl

/-- One write of a replayed log. -/
def replay (t : Json) (change : Change) : Json :=
  t.writeAt (splitKey change.key) change.newValue

/-- What a call of `applyUpdates` does. -/
structure Applies (c : Store) (updates : Document) (validate : Bool) : Prop where
  failed : (c.applyUpdates updates validate).returned = false →
    (c.applyUpdates updates validate).store.configData = c.configData ∧
      (c.applyUpdates updates validate).invoked = []
  merged : (c.applyUpdates updates validate).returned = true → HasMembers updates.1 →
    (c.applyUpdates updates validate).store.configData.1 = c.configData.1.merged updates.1
  nothing : (c.applyUpdates updates validate).returned = true → ¬ HasMembers updates.1 →
    (c.applyUpdates updates validate).store.configData = c.configData ∧
      (c.applyUpdates updates validate).invoked = []
  again : (c.applyUpdates updates validate).returned = true →
    ((c.applyUpdates updates validate).store.applyUpdates updates validate).store.configData =
      (c.applyUpdates updates validate).store.configData
  notified : (c.applyUpdates updates validate).returned = true →
    (c.applyUpdates updates validate).invoked =
      (c.merge updates).changes.flatMap fun change =>
        c.notifyCallbacks change.key change.oldValue change.newValue
  replayed : (c.applyUpdates updates validate).returned = true → c.monitoringEnabled = true →
    PlainKeys updates.1 →
      (c.merge updates).changes.foldl replay c.configData.1 =
        (c.applyUpdates updates validate).store.configData.1
  oldValue : (c.applyUpdates updates validate).returned = true → c.monitoringEnabled = true →
    PlainKeys updates.1 → ∀ change ∈ (c.merge updates).changes,
      change.oldValue = (c.configData.1.at? (splitKey change.key)).getD .null

/-- The path of a reported write is read back from its key. -/
theorem splitKey_report {e : List String × Json} (hv : (Json.object ms).Sorted)
    (hplain : PlainKeys (.object ms)) (he : e ∈ Json.leaves t ms) :
    splitKey (report "" t e).key = e.1 := by
  obtain ⟨hne, hat⟩ := Json.at?_of_mem_leaves hv he
  exact splitKey_foldl_fullKey hne (hplain e.1 (by rw [hat]; rfl))

theorem foldl_replay {es : List (List String × Json)} {u : Json}
    (h : ∀ e ∈ es, splitKey (report "" t e).key = e.1) :
    (es.map (report "" t)).foldl replay u = es.foldl Json.write u := by
  induction es generalizing u with
  | nil => rfl
  | cons e es ih =>
    obtain ⟨he, hes⟩ := List.forall_mem_cons.mp h
    rw [List.map_cons, List.foldl_cons, List.foldl_cons, ih hes, replay, he]
    rfl

/-- The log of a merge, replayed, is the merge, and its old values are those of the tree. -/
theorem replay_report (hv : (Json.object ms).Sorted) (hne : ms ≠ []) (ht : t.Sorted)
    (hplain : PlainKeys (.object ms)) :
    ((Json.leaves t ms).map (report "" t)).foldl replay t = t.merged (.object ms) ∧
      ∀ change ∈ (Json.leaves t ms).map (report "" t),
        change.oldValue = (t.at? (splitKey change.key)).getD .null := by
  have hkeys (e : List String × Json) (he : e ∈ Json.leaves t ms) :
      splitKey (report "" t e).key = e.1 := splitKey_report hv hplain he
  constructor
  · rw [foldl_replay hkeys, Json.foldl_write_leaves hv ht, Json.mergedMembers_eq_merged hv ht hne]
  · intro change hchange
    obtain ⟨e, he, rfl⟩ := List.mem_map.mp hchange
    rw [hkeys e he]
    rfl

/-- Merged updates are merged again to the same tree. -/
theorem configData_applyUpdates_of_merged {d : Store}
    (hd : d.configData.1 = c.configData.1.merged updates.1) :
    (d.applyUpdates updates validate).store.configData = d.configData := by
  rcases d.merge_cases updates with ⟨-, -, hmerge⟩ | ⟨-, hmerge⟩ | ⟨-, hmerge⟩
  · rw [applyUpdates_of_merged validate hmerge]
    refine Subtype.ext ?_
    change d.configData.1.merged updates.1 = d.configData.1
    rw [hd, Json.merged_merged updates.2 c.configData.2]
  · rw [applyUpdates_of_nothing validate hmerge]
  · rw [applyUpdates_of_threw validate hmerge]

/-- **`applyUpdates` merges an object that has members, and does nothing for other updates that it
accepts**; what it reports is the merge. -/
theorem applies (c : Store) (updates : Document) (validate : Bool) :
    c.Applies updates validate := by
  rcases c.merge_cases updates with ⟨hmembers, -, hmerge⟩ | ⟨hmembers, hmerge⟩ | ⟨-, hmerge⟩
  · have happly := applyUpdates_of_merged validate hmerge
    obtain ⟨ms, hms, hne⟩ := HasMembers.eq_object hmembers
    have hsorted : (Json.object ms).Sorted := hms ▸ updates.2
    have hlog (hmonitor : c.monitoringEnabled = true) : (c.merge updates).changes =
        (Json.leaves c.configData.1 ms).map (report "" c.configData.1) := by
      rw [hmerge, hmonitor, hms]
      rfl
    have htree : (c.applyUpdates updates validate).store.configData.1 =
        c.configData.1.merged updates.1 := by rw [happly]
    exact {
      failed := fun h => absurd h (by rw [happly]; exact Bool.noConfusion)
      merged := fun _ _ => htree
      nothing := fun _ h => absurd hmembers h
      again := fun _ => configData_applyUpdates_of_merged htree
      notified := fun _ => by rw [happly, hmerge]
      replayed := fun _ hmonitor hplain => by
        rw [hlog hmonitor, htree, hms]
        exact (replay_report hsorted hne c.configData.2 (hms ▸ hplain)).1
      oldValue := fun _ hmonitor hplain => by
        rw [hlog hmonitor]
        exact (replay_report hsorted hne c.configData.2 (hms ▸ hplain)).2 }
  · have happly := applyUpdates_of_nothing validate hmerge
    exact {
      failed := fun h => absurd h (by rw [happly]; exact Bool.noConfusion)
      merged := fun _ h => absurd h hmembers
      nothing := fun _ _ => by rw [happly]; exact ⟨rfl, rfl⟩
      again := fun _ => by rw [happly, happly]
      notified := fun _ => by rw [happly, hmerge]; rfl
      replayed := fun _ _ _ => by rw [happly, hmerge]; rfl
      oldValue := fun _ _ _ change h => absurd h (by rw [hmerge]; exact List.not_mem_nil) }
  · have happly := applyUpdates_of_threw validate hmerge
    have hfalse (h : (c.applyUpdates updates validate).returned = true) : False := by
      rw [happly] at h
      exact absurd h Bool.noConfusion
    exact {
      failed := fun _ => by rw [happly]; exact ⟨rfl, rfl⟩
      merged := fun h => (hfalse h).elim
      nothing := fun h => (hfalse h).elim
      again := fun h => (hfalse h).elim
      notified := fun h => (hfalse h).elim
      replayed := fun h => (hfalse h).elim
      oldValue := fun h => (hfalse h).elim }

/-- `null` and `{}` are accepted without replacing the tree, and the path of a key with a dot
leads elsewhere. -/
theorem applyUpdates_is_no_merge :
    let rate : Store := { configData := Document.null.put "rate" ⟨.integer 5, .integer 5⟩ }
    let list : Store := { configData := ⟨.array [], .array fun _ h => absurd h List.not_mem_nil⟩ }
    let fresh : Store := {}
    let empty : Document := ⟨.emptyObject, Json.sorted_emptyObject⟩
    let dotted := Document.null.put "motor.rate" ⟨.integer 7, .integer 7⟩
    ((rate.applyUpdates .null true).returned = true ∧
      (rate.applyUpdates .null true).store.configData.1 ≠ rate.configData.1.merged .null) ∧
    ((list.applyUpdates empty true).returned = true ∧
      (list.applyUpdates empty true).store.configData.1 ≠ list.configData.1.merged .emptyObject) ∧
    ((fresh.applyUpdates dotted true).returned = true ∧
      (fresh.merge dotted).changes.foldl replay fresh.configData.1 ≠
        (fresh.applyUpdates dotted true).store.configData.1) := by
  intro rate list fresh empty dotted
  refine ⟨⟨by decide +kernel, fun h => ?_⟩, ⟨by decide +kernel, fun h => ?_⟩,
    ⟨by decide +kernel, fun h => ?_⟩⟩
  · exact absurd (congrArg Json.isNull h) (by decide +kernel)
  · exact absurd (congrArg Json.isObject h) (by decide +kernel)
  · exact absurd (congrArg (Json.contains "motor") h) (by decide +kernel)

theorem configData_applyUpdates (validate : Bool) (h : HasMembers updates.1)
    (hindex : c.configData.1.indexable = true) :
    (c.applyUpdates updates validate).store.configData.1 = c.configData.1.merged updates.1 := by
  rcases c.merge_cases updates with ⟨-, -, hmerge⟩ | ⟨hnone, -⟩ | ⟨hthrew, -⟩
  · rw [applyUpdates_of_merged validate hmerge]
  · exact absurd h hnone
  · obtain ⟨ms, hms, -⟩ := h.eq_object
    rw [hms, hindex] at hthrew
    cases hthrew

theorem HasMembers.merged {u : Json} (hv : v.Sorted) (h : HasMembers v) :
    HasMembers (u.merged v) := by
  obtain ⟨ms, rfl, hne⟩ := h.eq_object
  obtain ⟨m, ms, rfl⟩ := List.exists_cons_of_ne_nil hne
  intro hnil
  have hself : List.lookup m.1 (m :: ms) = some m.2 := List.lookup_cons_self
  have hfind : (u.merged (.object (m :: ms))).find? m.1 =
      Json.updated (u.find? m.1) (List.lookup m.1 (m :: ms)) :=
    Json.find?_merged_object hv.sorted_members
  rw [hself, Json.find?, hnil] at hfind
  cases hfind

/-- **Two calls are one call with the merged updates.** -/
theorem applyUpdates_applyUpdates {earlier later : Document} (validate : Bool)
    (hearlier : HasMembers earlier.1) (hlater : HasMembers later.1)
    (hlayered : earlier.1.Layered later.1) (hindex : c.configData.1.indexable = true) :
    ((c.applyUpdates earlier validate).store.applyUpdates later validate).store.configData =
      (c.applyUpdates
        ⟨earlier.1.merged later.1, later.2.merged earlier.2⟩ validate).store.configData := by
  have hfirst := configData_applyUpdates validate hearlier hindex
  have hobject : (c.applyUpdates earlier validate).store.configData.1.isObject = true := by
    obtain ⟨ms, hms, -⟩ := hearlier.eq_object
    rw [hfirst, hms]
    exact Json.isObject_merged_object
  obtain ⟨ms, hms⟩ := Json.eq_object hobject
  refine Subtype.ext ?_
  rw [configData_applyUpdates validate hlater (by rw [hms]; rfl), hfirst,
    configData_applyUpdates validate (HasMembers.merged later.2 hlater) hindex]
  exact Json.merged_assoc later.2 earlier.2 c.configData.2 hlayered

/-- Two keys of one object, one after the other. -/
theorem applyUpdates_applyUpdates_rate :
    let earlier := Document.null.put "rate" ⟨.integer 5, .integer 5⟩
    let later := Document.null.put "gain" ⟨.integer 7, .integer 7⟩
    ((({} : Store).applyUpdates earlier true).store.applyUpdates later true).store.configData =
      (({} : Store).applyUpdates
        ⟨earlier.1.merged later.1, later.2.merged earlier.2⟩ true).store.configData := by
  intro earlier later
  refine applyUpdates_applyUpdates true (List.cons_ne_nil _ _) (List.cons_ne_nil _ _)
    (fun p w x hw hx _ => ?_) rfl
  cases p with
  | nil =>
    obtain rfl := Option.some.inj hw
    rfl
  | cons k p =>
    rw [Json.at?_cons] at hw hx
    by_cases hk : k = "gain"
    · rw [hk] at hw
      cases hw
    · have hnone : later.1.find? k = none := Json.find?_put_of_ne hk
      rw [hnone] at hx
      cases hx

/-! ## The two merges -/

/-- **A document without `null` members is merged alike by both calls**, unless it is empty and so
is the configuration. -/
theorem loadFromString_eq_applyUpdates {parse : String → Option Document} {text : String}
    (hparse : parse text = some updates) (hobject : updates.1.isObject = true)
    (hfree : updates.1.NullFree)
    (hroot : c.configData.1.isObject = true ∨ c.configData.1 = .null ∧ HasMembers updates.1) :
    (c.loadFromString parse text true).store.configData =
      (c.applyUpdates updates validate).store.configData := by
  have hload : (c.loadFromString parse text true).store.configData =
      c.configData.mergePatch updates := by
    rw [loadFromString, hparse]
    exact congrArg (fun r : Response => r.store.configData)
      (if_neg fun h => h.2 validateInternal_eq_nil)
  have hmerge : c.configData.1.mergePatch updates.1 = c.configData.1.merged updates.1 :=
    Json.mergePatch_eq_merged updates.2 c.configData.2 hfree
  refine hload.trans (Subtype.ext (hmerge.trans ?_))
  rcases c.merge_cases updates with ⟨-, -, happly⟩ | ⟨hnone, happly⟩ | ⟨hthrows, -⟩
  · rw [applyUpdates_of_merged validate happly]
  · rw [applyUpdates_of_nothing validate happly]
    have hconfig := hroot.resolve_right fun h => hnone h.2
    cases hu : updates.1 with
    | object ms =>
      cases ht : c.configData.1 with
      | object ts =>
        rw [HasMembers, hu] at hnone
        obtain rfl : ms = [] := not_not.mp hnone
        rw [Json.merged, Json.mergedMembers]
      | _ => exact absurd (ht ▸ hconfig) (by simp [Json.isObject])
    | _ => exact absurd (hu ▸ hobject) (by simp [Json.isObject])
  · have hindex : c.configData.1.indexable = true := by
      rcases hroot with h | ⟨h, -⟩
      · cases ht : c.configData.1 with
        | object ts => rfl
        | _ => exact absurd (ht ▸ h) (by simp [Json.isObject])
      · rw [h]
        rfl
    rw [hobject, hindex] at hthrows
    exact absurd hthrows (by simp)

theorem loadFromString_rate :
    (({} : Store).loadFromString
        (fun text =>
          if text = "\x7b\"rate\": 5\x7d" then
            some (Document.null.put "rate" ⟨.integer 5, .integer 5⟩)
          else none)
        "\x7b\"rate\": 5\x7d" true).store.configData =
      (({} : Store).applyUpdates (Document.null.put "rate" ⟨.integer 5, .integer 5⟩)
        true).store.configData := by
  refine loadFromString_eq_applyUpdates (if_pos rfl) rfl (.of_find? fun k w hw => ?_)
    (.inr ⟨rfl, List.cons_ne_nil _ _⟩)
  obtain ⟨-, rfl⟩ : k = "rate" ∧ w = .integer 5 := by
    have hmem := Members.mem_of_lookup hw
    simpa [Document.put, Document.null, Json.put, Json.members, Members.insert] using hmem
  exact ⟨Json.noConfusion, Json.nullFree_integer 5⟩

/-- An empty document makes an object of an empty configuration, or leaves it `null`. -/
theorem loadFromString_empty :
    (({} : Store).loadFromString (fun _ => some ⟨.emptyObject, Json.sorted_emptyObject⟩)
        "\x7b\x7d" true).store.configData ≠
      (({} : Store).applyUpdates ⟨.emptyObject, Json.sorted_emptyObject⟩ true).store.configData :=
  fun h => absurd (congrArg (fun d : Document => d.1.isObject) h) (by decide +kernel)

end Store

end Configuration

end AxonVex
