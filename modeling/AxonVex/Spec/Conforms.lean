import AxonVex.Spec.Accepted
import AxonVex.Spec.Readers

/-!
# Spec/Conforms — `parse` decides the schema

Each section parser decides its part of the schema and yields what the section says, but for the
two numbers it stores as `int`.
-/

namespace AxonVex

open Machinery Machinery.Reported Schema

/-! ## Sections of entries -/

theorem decides_parseConnection (base : String) {c : Json} (hc : c.Stored)
    (hobj : c.isObject = true) :
    (parseConnection base c).Decides (connectionSchema c)
      fun scs => ∃ sc, scs = [sc] ∧ ConnectionContents c sc := by
  refine Decides.object connectionSchema rfl hc hobj rfl (by decide) (by decide)
    (Decides.bind (decides_checkRef (by decide)) fun source hsource =>
      Decides.bind (decides_checkRef (by decide)) fun target htarget =>
        Decides.pure trivial ?_)
  obtain ⟨source, rfl, hsource⟩ := hsource
  obtain ⟨target, rfl, htarget⟩ := htarget
  exact ⟨_, rfl, hsource, htarget⟩

theorem decides_parseAdapter (base : String) {a : Json} (ha : a.Stored) (hobj : a.isObject = true) :
    (parseAdapter base a).Decides (adapterSchema a)
      fun sas => ∃ sa, sas = [sa] ∧ AdapterContents a sa :=
  Decides.object adapterSchema rfl ha hobj rfl (by decide) (by decide)
    (Decides.bind (decides_requiredString (by decide)) fun _ huri =>
      Decides.bind (decides_requiredString (by decide)) fun _ htype =>
        Decides.bind (decides_objectField (by decide)) fun _ hconfig =>
          Decides.pure trivial ⟨_, rfl, huri, htype, hconfig⟩)

theorem decides_parsePolicy (base : String) {p : Json} (hp : p.Stored) (hobj : p.isObject = true) :
    (parsePolicy base p).Decides (policySchema p)
      fun policies => ∃ policy, policies = [policy] ∧ PolicyContents p policy :=
  Decides.object policySchema rfl hp hobj rfl (by decide) (by decide)
    (Decides.bind (decides_requiredString (by decide)) fun _ htype =>
      Decides.bind (decides_objectField (by decide)) fun _ hparams =>
        Decides.pure trivial ⟨_, rfl, htype, hparams⟩)

theorem decides_parseElement (base : String) {e : Json} (he : e.Stored) (hobj : e.isObject = true) :
    (parseElement base e).Decides (elementSchema e)
      fun elements => ∃ element, elements = [element] ∧ ElementContents e element :=
  Decides.object elementSchema rfl he hobj rfl (by decide) (by decide)
    (Decides.bind (decides_plainString (by decide)) fun _ hname =>
      Decides.bind (decides_plainString (by decide)) fun _ htype =>
        Decides.bind (decides_objectField (by decide)) fun _ hparams =>
          Decides.pure trivial ⟨_, rfl, hname, htype, hparams⟩)

theorem decides_parseOn (base : String) {t : Json} {required : List String}
    (hkey : "on" ∈ required) :
    (parseMissionTransition.parseOn base t).Decides
      (Member required t ("on", enum ["success", "failure", "abort"])) (TextField t "on") := by
  refine decides_required hkey (fun hv => by simp [parseMissionTransition.parseOn, hv]) fun v hv => ?_
  simp only [parseMissionTransition.parseOn, hv]
  split_ifs with hstring hon
  · refine Decides.of_not_clean clean_refuse ?_
    rintro ⟨s, -, rfl⟩
    simp [Json.isString] at hstring
  · obtain ⟨s, rfl⟩ := Json.isString_iff.mp (by simpa using hstring)
    exact Decides.pure ⟨s, hon, rfl⟩ hv
  · refine Decides.of_not_clean clean_refuse ?_
    rintro ⟨s, hs, rfl⟩
    exact hon hs

theorem decides_parseMissionTransition (base : String) {t : Json} (ht : t.Stored)
    (hobj : t.isObject = true) :
    (parseMissionTransition base t).Decides (transitionSchema t)
      fun transitions => ∃ transition, transitions = [transition] ∧ TransitionContents t transition :=
  Decides.object transitionSchema rfl ht hobj rfl (by decide) (by decide)
    (Decides.bind (decides_plainString (by decide)) fun _ hsource =>
      Decides.bind (decides_plainString (by decide)) fun _ htarget =>
        Decides.bind (decides_parseOn base (by decide)) fun _ hon =>
          Decides.pure trivial ⟨_, rfl, hsource, htarget, hon⟩)

theorem decides_parsePipelineArray {α : Type} {S : Schema} {Is : Json → α → Prop}
    {base key kind : String} {parseEntry : String → Json → Parsed (List α)} {mp : Json}
    {required : List String} (hmp : mp.Stored) (hkey : key ∉ required)
    (hS : ∀ v, S v → v.isObject = true)
    (hentry : ∀ base (v : Json), v.Stored → v.isObject = true →
      (parseEntry base v).Decides (S v) fun as => ∃ a, as = [a] ∧ Is v a) :
    (parsePipelineArray mp base key kind parseEntry).Decides
      (Member required mp (key, array 0 S)) (Field mp key (IsArray Is) []) := by
  refine decides_optional hkey (fun hv => by simp [parsePipelineArray, hv]) fun v hv => ?_
  simp only [parsePipelineArray, hv]
  split_ifs with harray
  · refine Decides.of_not_clean clean_refuse fun h => ?_
    simp [isArray_of_array h] at harray
  · exact decides_array hS hentry (hmp.find? hv) (by simpa using harray)

theorem decides_parsePipeline (base : String) {mp : Json} (hmp : mp.Stored)
    (hobj : mp.isObject = true) :
    (parsePipeline base mp).Decides (pipelineSchema mp)
      fun pipelines => ∃ pipeline, pipelines = [pipeline] ∧ PipelineContents mp pipeline :=
  Decides.object pipelineSchema rfl hmp hobj rfl (by decide) (by decide)
    (Decides.bind (decides_requiredString (by decide)) fun _ hname =>
      Decides.bind (decides_parsePipelineArray hmp (by decide) (fun _ => isObject_of_object)
        fun base _ => decides_parseElement base) fun _ helements =>
        Decides.bind (decides_parsePipelineArray hmp (by decide) (fun _ => isObject_of_object)
          fun base _ => decides_parseMissionTransition base) fun _ htransitions =>
          Decides.pure trivial ⟨_, rfl, hname, helements, htransitions⟩)

/-! ## The optional sections -/

section

variable {doc : Json} (hdoc : doc.Stored) {required : List String} {spec : SystemSpec}

include hdoc

/-- **A section that is an array** goes into one field of the spec. -/
theorem decides_arraySection {α : Type} {S : Schema} {Is : Json → α → Prop} {key : String}
    (path kind : String) {parseEntry : String → Json → Parsed (List α)}
    (update : List α → SystemSpec) {x : Parsed SystemSpec} (hkey : key ∉ required)
    (hS : ∀ v, S v → v.isObject = true)
    (hentry : ∀ base (v : Json), v.Stored → v.isObject = true →
      (parseEntry base v).Decides (S v) fun as => ∃ a, as = [a] ∧ Is v a)
    (hnone : doc.find? key = none → x = pure (update []))
    (hbad : ∀ v, doc.find? key = some v → v.isArray = false → ¬ x.Clean)
    (hgood : ∀ v, doc.find? key = some v → v.isArray = true →
      x = parseEntries v.elements path kind parseEntry >>= fun as => pure (update as)) :
    x.Decides (Member required doc (key, array 0 S))
      fun spec' => ∃ as, spec' = update as ∧ Field doc key (IsArray Is) [] as := by
  refine (decides_optional hkey hnone fun v hv => ?_).congr Iff.rfl
    fun _ _ (h : Field doc key (fun v spec' => ∃ as, spec' = update as ∧ IsArray Is v as) _ _) =>
      h.into update rfl
  cases harray : v.isArray with
  | false =>
    refine Decides.of_not_clean (hbad v hv harray) fun h => ?_
    rw [isArray_of_array h] at harray
    exact absurd harray (by simp)
  | true =>
    rw [hgood v hv harray]
    exact (Decides.bind (decides_array hS hentry (hdoc.find? hv) harray)
      fun as h => Decides.pure trivial ⟨as, rfl, h⟩).congr (iff_of_eq (and_true _)) fun _ _ h => h

theorem decides_parseConnectionsSection (hkey : "connections" ∉ required)
    (hspec : spec.connections = []) :
    (parseConnectionsSection doc spec).Decides
      (Member required doc ("connections", array 0 connectionSchema))
      fun spec' => ∃ connections, spec' = { spec with connections } ∧
        Field doc "connections" (IsArray ConnectionContents) [] connections := by
  refine decides_arraySection hdoc "$.connections" "connection"
    (fun connections => { spec with connections }) hkey (fun _ => isObject_of_object)
    (fun base _ => decides_parseConnection base) ?_ ?_ ?_
  · intro hv
    simp only [parseConnectionsSection, hv, ← hspec]
  · intro v hv harray
    simp [parseConnectionsSection, hv, harray]
  · intro v hv harray
    simp only [parseConnectionsSection, hv, harray, hspec, List.nil_append]
    rfl

theorem decides_parseAdaptersSection (hkey : "adapters" ∉ required) (hspec : spec.adapters = []) :
    (parseAdaptersSection doc spec).Decides
      (Member required doc ("adapters", array 0 adapterSchema))
      fun spec' => ∃ adapters, spec' = { spec with adapters } ∧
        Field doc "adapters" (IsArray AdapterContents) [] adapters := by
  refine decides_arraySection hdoc "$.adapters" "adapter"
    (fun adapters => { spec with adapters }) hkey (fun _ => isObject_of_object)
    (fun base _ => decides_parseAdapter base) ?_ ?_ ?_
  · intro hv
    simp only [parseAdaptersSection, hv, ← hspec]
  · intro v hv harray
    simp [parseAdaptersSection, hv, harray]
  · intro v hv harray
    simp only [parseAdaptersSection, hv, harray, hspec, List.nil_append]
    rfl

theorem decides_parseMissionPipelinesSection (hkey : "missionPipelines" ∉ required)
    (hspec : spec.missionPipelines = []) :
    (parseMissionPipelinesSection doc spec).Decides
      (Member required doc ("missionPipelines", array 0 pipelineSchema))
      fun spec' => ∃ missionPipelines, spec' = { spec with missionPipelines } ∧
        Field doc "missionPipelines" (IsArray PipelineContents) [] missionPipelines := by
  refine decides_arraySection hdoc "$.missionPipelines" "missionPipeline"
    (fun missionPipelines => { spec with missionPipelines }) hkey (fun _ => isObject_of_object)
    (fun base _ => decides_parsePipeline base) ?_ ?_ ?_
  · intro hv
    simp only [parseMissionPipelinesSection, hv, ← hspec]
  · intro v hv harray
    simp [parseMissionPipelinesSection, hv, harray]
  · intro v hv harray
    simp only [parseMissionPipelinesSection, hv, harray, hspec, List.nil_append]
    rfl

omit hdoc

theorem decides_parsePortEntry (base : String) (target : Table String String)
    (entry : String × Json) : (parsePortEntry base target entry).Decides (portRef entry.2)
      fun table => ∃ text, entry.2 = .string text ∧ table = target.insert entry.1 text := by
  unfold parsePortEntry
  split_ifs with hstring hvalid
  · refine Decides.of_not_clean clean_refuse ?_
    rintro ⟨a, b, -, -, heq⟩
    simp [heq, Json.isString] at hstring
  · refine Decides.of_not_clean clean_refuse ?_
    rintro ⟨a, b, ha, hb, heq⟩
    simp only [heq, Json.getString, Bool.not_eq_true'] at hvalid
    rw [isValidPortRef_iff.mpr ⟨a, b, ha, hb, rfl⟩] at hvalid
    exact absurd hvalid (by simp)
  · obtain ⟨s, hs⟩ := Json.isString_iff.mp (by simpa using hstring)
    rw [hs] at hvalid ⊢
    obtain ⟨a, b, ha, hb, rfl⟩ := isValidPortRef_iff.mp (by simpa [Json.getString] using hvalid)
    exact Decides.pure ⟨a, b, ha, hb, rfl⟩ ⟨_, rfl, rfl⟩

/-- The entries of a port map, on top of the ones before. -/
theorem decides_portEntries (base : String) {members : List (String × Json)}
    (hnodup : (members.map Prod.fst).Nodup) (target : Table String String)
    (hnew : ∀ m ∈ members, m.1 ∉ target) :
    (members.foldlM (parsePortEntry base) target).Decides (∀ m ∈ members, portRef m.2)
      fun table => ∀ name text, table.lookup name = some text ↔
        target.lookup name = some text ∨ (name, Json.string text) ∈ members := by
  induction members generalizing target with
  | nil => exact Decides.pure (by simp) (by simp)
  | cons m members ih =>
    obtain ⟨hm, hmembers⟩ := List.nodup_cons.mp hnodup
    rw [List.foldlM_cons, List.forall_mem_cons]
    refine Decides.bind (decides_parsePortEntry base target m) ?_
    rintro _ ⟨text, htext, rfl⟩
    have hnew' : ∀ m' ∈ members, m'.1 ∉ target.insert m.1 text := by
      intro m' hm' hmem
      rcases (AList.mem_insert _).mp hmem with heq | hmem
      · exact hm (List.mem_map.mpr ⟨m', hm', heq⟩)
      · exact hnew m' (List.mem_cons_of_mem _ hm') hmem
    refine (ih hmembers _ hnew').congr Iff.rfl fun table _ htable name text' => ?_
    have hm₁ : m.1 ∉ target := hnew m List.mem_cons_self
    rw [htable, AList.lookup_insert_eq_some, List.mem_cons]
    constructor
    · rintro ((⟨rfl, rfl⟩ | ⟨-, h⟩) | h)
      · exact .inr (.inl (Prod.ext rfl htext.symm))
      · exact .inl h
      · exact .inr (.inr h)
    · rintro (h | rfl | h)
      · refine .inl (.inr ⟨?_, h⟩)
        rintro rfl
        exact hm₁ (AList.mem_of_lookup h)
      · exact .inl (.inl ⟨rfl, (Json.string.inj htext).symm⟩)
      · exact .inr h

theorem decides_parseMap {sp : Json} {key : String} (hsp : sp.Stored) (hkey : key ∉ required) :
    (parseMap sp key ∅).Decides (Member required sp (key, objectOf portRef))
      (Field sp key IsTable ∅) := by
  refine decides_optional hkey (fun hv => by simp only [parseMap, hv]) fun v hv => ?_
  have hstored := hsp.find? hv
  simp only [parseMap, hv]
  cases v with
  | object members =>
    refine (decides_portEntries _ hstored.nodup ∅ fun _ _ => AList.notMem_empty _).congr ?_ ?_
    · constructor
      · exact fun h => ⟨members, rfl, h⟩
      · rintro ⟨members', heq, h⟩
        obtain rfl := Json.object.inj heq
        exact h
    · intro table _ htable name text
      rw [htable, hstored.find?_eq_some]
      simp [Json.members]
  | _ => exact Decides.of_not_clean clean_refuse (by simp [objectOf])

include hdoc in
theorem decides_parseSystemPortsSection (hkey : "systemPorts" ∉ required)
    (hspec : spec.systemPorts = {}) :
    (parseSystemPortsSection doc spec).Decides
      (Member required doc ("systemPorts", systemPortsSchema))
      fun spec' => ∃ systemPorts, spec' = { spec with systemPorts } ∧
        Field doc "systemPorts" SystemPortsContents {} systemPorts := by
  refine (decides_optional hkey
    (fun hv => by simp only [parseSystemPortsSection, hv]) fun v hv => ?_).congr Iff.rfl
    fun _ _ (h : Field doc "systemPorts" (fun v spec' => ∃ systemPorts,
      spec' = { spec with systemPorts } ∧ SystemPortsContents v systemPorts) spec _) =>
        h.into (fun systemPorts => { spec with systemPorts }) (by rw [← hspec])
  have hstored := hdoc.find? hv
  simp only [parseSystemPortsSection, hv, hspec]
  split_ifs with hobj
  · refine Decides.of_not_clean clean_refuse fun h => ?_
    simp [isObject_of_object h] at hobj
  · exact Decides.object systemPortsSchema rfl hstored (by simpa using hobj) rfl (by decide)
      (by decide) (Decides.bind (decides_parseMap hstored (by decide)) fun inputs hinputs =>
        Decides.bind (decides_parseMap hstored (by decide)) fun outputs houtputs =>
          Decides.pure trivial ⟨_, rfl, hinputs, houtputs⟩)

theorem decides_parsePolicies {s : Json} (hs : s.Stored) (hkey : "policies" ∉ required) :
    (parseSafetySection.parsePolicies s).Decides
      (Member required s ("policies", array 0 policySchema))
      (Field s "policies" (IsArray PolicyContents) []) := by
  refine decides_optional hkey (fun hv => by simp [parseSafetySection.parsePolicies, hv])
    fun v hv => ?_
  simp only [parseSafetySection.parsePolicies, hv]
  split_ifs with harray
  · refine Decides.of_not_clean clean_refuse fun h => ?_
    simp [isArray_of_array h] at harray
  · exact decides_array (fun _ => isObject_of_object) (fun base _ => decides_parsePolicy base)
      (hs.find? hv) (by simpa using harray)

include hdoc in
theorem decides_parseSafetySection (hkey : "safety" ∉ required)
    (hspec : (spec.hasSafety, spec.safety) = (false, {})) :
    (parseSafetySection doc spec).Decides (Member required doc ("safety", safetySchema))
      fun spec' => ∃ safety : Bool × SpecSafety,
        spec' = { spec with hasSafety := safety.1, safety := safety.2 } ∧
          Field doc "safety" (SafetyContents (wrapSigned 32)) (false, {}) safety := by
  refine (decides_optional hkey
    (fun hv => by simp only [parseSafetySection, hv]) fun v hv => ?_).congr Iff.rfl
    fun _ _ (h : Field doc "safety" (fun v spec' => ∃ safety : Bool × SpecSafety,
      spec' = { spec with hasSafety := safety.1, safety := safety.2 } ∧
        SafetyContents (wrapSigned 32) v safety) spec _) =>
        h.into (fun safety : Bool × SpecSafety =>
          { spec with hasSafety := safety.1, safety := safety.2 }) (by rw [← hspec])
  have hstored := hdoc.find? hv
  have hsafety : spec.safety = {} := congrArg Prod.snd hspec
  simp only [parseSafetySection, hv, hsafety, List.nil_append]
  split_ifs with hobj
  · refine Decides.of_not_clean clean_refuse fun h => ?_
    simp [isObject_of_object h] at hobj
  · exact Decides.object safetySchema rfl hstored (by simpa using hobj) rfl (by decide) (by decide)
      (Decides.bind (decides_positiveField hstored (by decide) fun _ z hz _ => ⟨z, hz, rfl⟩)
        fun period hperiod => Decides.bind (decides_parsePolicies hstored (by decide))
          fun policies hpolicies => Decides.pure trivial
            ⟨(true, { evaluationPeriodMs := period, policies }), rfl, rfl, hperiod, hpolicies⟩)

end

/-! ## The system -/

theorem decides_parseSpecVersion {doc : Json} {required : List String} {spec : SystemSpec}
    (hkey : "specVersion" ∈ required) :
    (parseSpecVersion doc spec).Decides (Member required doc ("specVersion", const "1.0"))
      fun spec' => ∃ specVersion, spec' = { spec with specVersion } ∧
        TextField doc "specVersion" specVersion := by
  refine decides_required hkey (fun hv => by simp [parseSpecVersion, hv]) fun v hv => ?_
  simp only [parseSpecVersion, hv]
  split_ifs with hstring hversion
  · refine Decides.of_not_clean clean_refuse ?_
    rintro rfl
    simp [Json.isString] at hstring
  · obtain ⟨s, rfl⟩ := Json.isString_iff.mp (by simpa using hstring)
    obtain rfl : s = "1.0" := hversion
    exact Decides.pure rfl ⟨_, rfl, hv⟩
  · refine Decides.of_not_clean clean_refuse ?_
    rintro rfl
    exact hversion rfl

theorem decides_sizeField {sys : Json} {required : List String} {key : String} {target : ℕ}
    (hsys : sys.Stored) (hkey : key ∉ required) :
    (parseSystemSection.parsePositiveSizeField sys key target).Decides
      (Member required sys (key, integerAbove 0)) (Field sys key IsSize target) :=
  decides_positiveField hsys hkey fun v z hz hpos => by
    rw [IsSize, hz, Int.toNat_of_nonneg (by omega)]

theorem decides_parseSystemSection {doc : Json} (hdoc : doc.Stored) {required : List String}
    (hkey : "system" ∈ required) (specVersion : String) :
    (parseSystemSection doc { specVersion }).Decides
      (Member required doc ("system", systemSchema))
      fun spec' => spec'.specVersion = specVersion ∧ spec'.units = [] ∧ spec'.connections = [] ∧
        spec'.systemPorts = {} ∧ spec'.adapters = [] ∧
        (spec'.hasSafety, spec'.safety) = (false, {}) ∧ spec'.missionPipelines = [] ∧
        ∃ sys, doc.find? "system" = some sys ∧ SystemContents sys spec' := by
  refine decides_required hkey (fun hv => by simp [parseSystemSection, hv]) fun sys hv => ?_
  have hstored := hdoc.find? hv
  simp only [parseSystemSection, hv]
  split_ifs with hobj
  · refine Decides.of_not_clean clean_refuse fun h => ?_
    simp [isObject_of_object h] at hobj
  · exact Decides.object systemSchema rfl hstored (by simpa using hobj) rfl (by decide) (by decide)
      (Decides.bind (decides_requiredString (by decide)) fun _ hname =>
        Decides.bind (decides_positiveField hstored (by decide) fun _ _ hz _ => hz) fun _ htick =>
        Decides.bind (decides_enumField (by decide) [("ROUND_ROBIN", .roundRobin),
          ("PRIORITY_BASED", .priorityBased), ("EARLIEST_DEADLINE_FIRST", .earliestDeadlineFirst),
          ("RATE_MONOTONIC", .rateMonotonic)] (fun _ => rfl) (by simp [SchedulingPolicy.name]))
          fun _ hpolicy =>
        Decides.bind (decides_booleanField (by decide)) fun _ hrealTime =>
        Decides.bind (decides_enumField (by decide) [("Debug", .debug), ("Info", .info),
          ("Warning", .warning), ("Error", .error), ("Critical", .critical)] (fun _ => rfl)
          (by simp [LogLevel.name])) fun _ hlevel =>
        Decides.bind (decides_sizeField hstored (by decide)) fun _ hpool =>
        Decides.bind (decides_sizeField hstored (by decide)) fun _ hqueue =>
        Decides.bind (decides_sizeField hstored (by decide)) fun _ hmax =>
          Decides.pure trivial ⟨rfl, rfl, rfl, rfl, rfl, rfl, rfl, sys, rfl,
            hname, htick, hpolicy, hrealTime, hlevel, hpool, hqueue, hmax⟩)

/-! ## The units -/

theorem decides_parseTiming (base : String) {u : Json} (hu : u.Stored) {required : List String}
    (hkey : "timing" ∉ required) :
    (parseTiming base u).Decides (Member required u ("timing", timingSchema))
      (Field u "timing" IsTiming (false, {})) := by
  refine decides_optional hkey (fun hv => by simp [parseTiming, hv]) fun t hv => ?_
  have hstored := hu.find? hv
  simp only [parseTiming, hv]
  split_ifs with hobj
  · refine Decides.of_not_clean clean_refuse fun h => ?_
    simp [isObject_of_object h] at hobj
  · exact Decides.object timingSchema rfl hstored (by simpa using hobj) rfl (by decide) (by decide)
      (Decides.bind (decides_integerField hstored (by decide) fun _ _ hz _ => hz) fun _ hperiod =>
        Decides.bind (decides_integerField hstored (by decide) fun _ _ hz _ => hz) fun _ hdeadline =>
        Decides.bind (decides_integerField hstored (by decide) fun _ _ hz _ => hz) fun _ hwcet =>
        Decides.bind (decides_enumField (by decide) [("IDLE", .idle), ("LOW", .low),
          ("NORMAL", .normal), ("HIGH", .high), ("REAL_TIME", .realTime), ("CRITICAL", .critical)]
          (fun _ => rfl) (by simp [SchedulerPriority.name])) fun _ hpriority =>
        Decides.bind (decides_booleanField (by decide)) fun _ hrealTime =>
          Decides.pure trivial ⟨rfl, hperiod, hdeadline, hwcet, hpriority, hrealTime⟩)

/-- The name of a unit of the document is not among the names seen. -/
def NameIsNew (u : Json) (seenNames : Table String ℕ) : Prop :=
  ∀ name, u.find? "name" = some (.string name) → name ∉ seenNames

theorem nameIsNew_iff {u : Json} {seenNames : Table String ℕ} {name : String}
    (hname : TextField u "name" name) : NameIsNew u seenNames ↔ name ∉ seenNames := by
  refine ⟨fun h => h name hname, fun h name' hname' => ?_⟩
  obtain rfl := Json.string.inj (Option.some.inj (hname.symm.trans hname'))
  exact h

theorem decides_parseUnitName (seenNames : Table String ℕ) (i : ℕ) (base : String) {u : Json}
    {required : List String} (hkey : "name" ∈ required) :
    (parseUnitName seenNames i base u).Decides
      (Member required u ("name", string 1) ∧ NameIsNew u seenNames)
      fun named => TextField u "name" named.1 ∧ named.2 = seenNames.insert named.1 i := by
  have hread : (requiredString u "name" (base ++ ".name") "unit name is required"
      "unit name must be a non-empty string").Decides (Member required u ("name", string 1))
      fun name => TextField u "name" name ∧ name ≠ "" :=
    ⟨(decides_requiredString hkey).clean, fun hok =>
      ⟨(decides_requiredString hkey).value hok,
        requiredString_ne_empty ((decides_requiredString hkey).clean.mpr hok)⟩⟩
  refine Decides.bind hread fun name hnamed => ?_
  obtain ⟨hname, hne⟩ := hnamed
  rw [if_neg hne, nameIsNew_iff hname]
  split
  next seen hseen =>
    exact Decides.of_not_clean clean_refuse (not_not.mpr (AList.mem_of_lookup hseen))
  next hnone => exact Decides.pure (AList.lookup_eq_none.mp hnone) ⟨hname, rfl⟩

/-- The members of a unit behind its name. -/
abbrev unitProperties : List (String × Schema) :=
  [("type", string 1), ("params", anyObject), ("timing", timingSchema),
    ("downSamplingFactor", integer 1)]

/-- **The unit at an index**: an entry that satisfies the schema, with a new name. -/
theorem decides_parseUnit (parsed : ParsedUnits) (i : ℕ) {u : Json} (hu : u.Stored) :
    (parseUnit parsed i u).Decides (unitSchema u ∧ NameIsNew u parsed.seenNames)
      fun parsed' => ∃ su, parsed'.units = parsed.units ++ [su] ∧
        UnitContents (wrapSigned 32) u su ∧
        parsed'.seenNames = parsed.seenNames.insert su.name i := by
  unfold parseUnit
  dsimp only
  split_ifs with hobj
  · refine Decides.of_not_clean clean_refuse fun h => ?_
    simp [isObject_of_object h.1] at hobj
  · have hisObject : u.isObject = true := by simpa using hobj
    have hunit : unitSchema u ↔
        (∀ m ∈ u.members, m.1 ∈ ["name", "type", "params", "timing", "downSamplingFactor"]) ∧
          Member ["name", "type"] u ("name", string 1) ∧
            Members ["name", "type"] u unitProperties :=
      (object_iff hu (by decide) (by decide)).trans ⟨fun h => h.2, fun h => ⟨hisObject, h⟩⟩
    have hok : (∀ m ∈ u.members,
          m.1 ∈ ["name", "type", "params", "timing", "downSamplingFactor"]) ∧
        (Member ["name", "type"] u ("name", string 1) ∧ NameIsNew u parsed.seenNames) ∧
          Members ["name", "type"] u unitProperties ↔
        unitSchema u ∧ NameIsNew u parsed.seenNames := by
      rw [hunit]
      tauto
    rw [← hok]
    refine Decides.check clean_checkUnknownKeys
      (Decides.bind (decides_parseUnitName parsed.seenNames i _ (by decide)) ?_)
    rintro named ⟨hname, hseen⟩
    exact Decides.bind (decides_requiredString (by decide)) fun _ htype =>
      Decides.bind (decides_objectField (by decide)) fun _ hparams =>
      Decides.bind (decides_parseTiming _ hu (by decide)) fun _ htiming =>
      Decides.bind (decides_integerField hu (by decide) fun _ z hz _ => ⟨z, hz, rfl⟩)
        fun _ hfactor => Decides.pure trivial
          ⟨_, rfl, ⟨hname, htype, hparams, htiming, hfactor⟩, hseen⟩

/-- The name a unit of the document gives itself. -/
def givenName (u : Json) : Option Json := u.find? "name"

/-- A unit of the document that is accepted after units of these names. -/
def AcceptedAfter (seenNames : Table String ℕ) (u : Json) : Prop :=
  unitSchema u ∧ NameIsNew u seenNames

/-- A new name stays new next to a different one. -/
theorem nameIsNew_insert {u : Json} {seenNames : Table String ℕ} {name : String} {i : ℕ} :
    NameIsNew u (seenNames.insert name i) ↔
      NameIsNew u seenNames ∧ givenName u ≠ some (.string name) := by
  simp only [NameIsNew, AList.mem_insert, not_or]
  constructor
  · exact fun h => ⟨fun name' h' => (h name' h').2, fun h' => (h name h').1 rfl⟩
  · rintro ⟨h, hne⟩ name' h'
    refine ⟨?_, h name' h'⟩
    rintro rfl
    exact hne h'

/-- **The units, one after the other**: each satisfies the schema, and no name comes twice. -/
theorem decides_foldlM_parseUnit (parsed : ParsedUnits) {entries : List (Json × ℕ)}
    (hstored : ∀ e ∈ entries, e.1.Stored) :
    (entries.foldlM (fun parsed u => parseUnit parsed u.2 u.1) parsed).Decides
      ((∀ e ∈ entries, AcceptedAfter parsed.seenNames e.1) ∧
        (entries.map fun e => givenName e.1).Nodup)
      fun parsed' => ∃ units, parsed'.units = parsed.units ++ units ∧
        List.Forall₂ (fun e su => UnitContents (wrapSigned 32) e.1 su) entries units := by
  induction entries generalizing parsed with
  | nil => exact Decides.pure (by simp) ⟨[], (List.append_nil _).symm, .nil⟩
  | cons e entries ih =>
    have hrest : AcceptedAfter parsed.seenNames e.1 ∧
        (∀ e' ∈ entries, AcceptedAfter parsed.seenNames e'.1) ∧
          givenName e.1 ∉ (entries.map fun e => givenName e.1) ∧
            (entries.map fun e => givenName e.1).Nodup ↔
        (∀ e' ∈ e :: entries, AcceptedAfter parsed.seenNames e'.1) ∧
          ((e :: entries).map fun e => givenName e.1).Nodup := by
      rw [List.forall_mem_cons, List.map_cons, List.nodup_cons, and_assoc]
    rw [List.foldlM_cons, ← hrest]
    refine Decides.bind (decides_parseUnit parsed e.2 (hstored e List.mem_cons_self)) ?_
    rintro parsed' ⟨su, hunits, hsu, hseen⟩
    refine (ih parsed' fun e he => hstored e (List.mem_cons_of_mem _ he)).congr ?_ ?_
    · have hname : givenName e.1 = some (.string su.name) := hsu.name
      simp only [AcceptedAfter, hseen, nameIsNew_insert, hname, List.mem_map, not_exists, not_and]
      constructor
      · rintro ⟨h, hnodup⟩
        exact ⟨fun e' he' => ⟨(h e' he').1, (h e' he').2.1⟩, fun e' he' => (h e' he').2.2, hnodup⟩
      · rintro ⟨h, hne, hnodup⟩
        exact ⟨fun e' he' => ⟨(h e' he').1, (h e' he').2, hne e' he'⟩, hnodup⟩
    · rintro parsed'' _ ⟨units, hunits', hforall⟩
      exact ⟨su :: units, by rw [hunits', hunits]; simp, .cons hsu hforall⟩

/-- **Pairwise distinct unit names.** -/
def DistinctNames (doc : Json) : Prop :=
  ∀ units, doc.find? "units" = some (.array units) → (units.map givenName).Nodup

theorem decides_parseUnitsSection {doc : Json} (hdoc : doc.Stored) {required : List String}
    {spec : SystemSpec} (hkey : "units" ∈ required) (hspec : spec.units = []) :
    (parseUnitsSection doc spec).Decides
      (Member required doc ("units", array 1 unitSchema) ∧ DistinctNames doc)
      fun spec' => ∃ units, spec' = { spec with units } ∧ ∃ v, doc.find? "units" = some v ∧
        IsArray (UnitContents (wrapSigned 32)) v units := by
  unfold parseUnitsSection
  rw [member_required hkey]
  cases hv : doc.find? "units" with
  | none => exact Decides.of_not_clean clean_refuse (by simp)
  | some v =>
    dsimp only
    split_ifs with hbad
    · refine Decides.of_not_clean clean_refuse ?_
      rintro ⟨⟨w, hw, hunits⟩, -⟩
      obtain ⟨elements, rfl, hlen, -⟩ := hunits
      obtain ⟨⟩ := hw
      cases elements with
      | nil => exact absurd hlen (by decide)
      | cons u elements => simp [Json.isArray, Json.elements] at hbad
    · cases v with
      | array elements =>
        have hstored := (hdoc.find? hv).elements
        have hne : elements ≠ [] := by
          rintro rfl
          exact hbad rfl
        refine (Decides.bind (decides_foldlM_parseUnit {} ((forall_zipIdx Json.Stored).mpr hstored))
          fun parsed hparsed => Decides.pure trivial ?_).congr ?_ fun _ _ h => h
        · obtain ⟨units, hunits, hforall⟩ := hparsed
          have hfst := (List.forall₂_map_left_iff (f := Prod.fst)
            (R := UnitContents (wrapSigned 32))).mpr hforall
          rw [List.zipIdx_map_fst] at hfst
          refine ⟨units, ?_, .array elements, rfl, elements, rfl, hfst⟩
          rw [hspec, hunits]
          rfl
        · rw [and_true, map_zipIdx, forall_zipIdx (AcceptedAfter ∅)]
          have hnew (u : Json) : AcceptedAfter ∅ u ↔ unitSchema u :=
            ⟨fun h => h.1, fun h => ⟨h, fun _ _ => AList.notMem_empty _⟩⟩
          simp only [hnew]
          constructor
          · rintro ⟨hunits, hnodup⟩
            refine ⟨⟨_, rfl, elements, rfl, List.length_pos_iff.mpr hne, hunits⟩, fun us hus => ?_⟩
            obtain rfl := Json.array.inj (Option.some.inj (hv.symm.trans hus))
            exact hnodup
          · rintro ⟨⟨_, hw, elements', rfl, -, hunits⟩, hnodup⟩
            obtain rfl := Json.array.inj (Option.some.inj hw)
            exact ⟨hunits, hnodup _ hv⟩
      | _ => exact absurd rfl hbad

/-! ## The document -/

/-- The members of a document behind its units. -/
abbrev optionalSections : List (String × Schema) :=
  [("connections", array 0 connectionSchema), ("systemPorts", systemPortsSchema),
    ("adapters", array 0 adapterSchema), ("safety", safetySchema),
    ("missionPipelines", array 0 pipelineSchema)]

/-- **`parse` decides the schema and the names**, and yields what the document says. -/
theorem decides_parseDocument {doc : Json} (hdoc : doc.Stored) (hobj : doc.isObject = true) :
    (parseDocument doc).Decides (axvSchema doc ∧ DistinctNames doc)
      (Contents (wrapSigned 32) doc) := by
  have hschema : axvSchema doc ↔ (∀ m ∈ doc.members, m.1 ∈ ["specVersion", "system", "units",
      "connections", "systemPorts", "adapters", "safety", "missionPipelines"]) ∧
        Member ["specVersion", "system", "units"] doc ("specVersion", const "1.0") ∧
        Member ["specVersion", "system", "units"] doc ("system", systemSchema) ∧
        Member ["specVersion", "system", "units"] doc ("units", array 1 unitSchema) ∧
        Members ["specVersion", "system", "units"] doc optionalSections :=
    (object_iff hdoc (by decide) (by decide)).trans ⟨fun h => h.2, fun h => ⟨hobj, h⟩⟩
  have hok : (∀ m ∈ doc.members, m.1 ∈ ["specVersion", "system", "units",
      "connections", "systemPorts", "adapters", "safety", "missionPipelines"]) ∧
        Member ["specVersion", "system", "units"] doc ("specVersion", const "1.0") ∧
        Member ["specVersion", "system", "units"] doc ("system", systemSchema) ∧
        (Member ["specVersion", "system", "units"] doc ("units", array 1 unitSchema) ∧
          DistinctNames doc) ∧
        Members ["specVersion", "system", "units"] doc optionalSections ↔
      axvSchema doc ∧ DistinctNames doc := by
    rw [hschema]
    tauto
  rw [← hok]
  refine Decides.check clean_checkUnknownKeys (Decides.bind
    (decides_parseSpecVersion (by decide)) ?_)
  rintro _ ⟨specVersion, rfl, hversion⟩
  refine Decides.bind (decides_parseSystemSection hdoc (by decide) specVersion) ?_
  rintro spec ⟨rfl, hunits₀, hconnections₀, hports₀, hadapters₀, hsafety₀, hmissions₀, hsystem⟩
  refine Decides.bind (decides_parseUnitsSection hdoc (by decide) hunits₀) ?_
  rintro _ ⟨units, rfl, hunits⟩
  refine Decides.bind (decides_parseConnectionsSection hdoc (by decide) hconnections₀) ?_
  rintro _ ⟨connections, rfl, hconnections⟩
  refine Decides.bind (decides_parseSystemPortsSection hdoc (by decide) hports₀) ?_
  rintro _ ⟨systemPorts, rfl, hports⟩
  refine Decides.bind (decides_parseAdaptersSection hdoc (by decide) hadapters₀) ?_
  rintro _ ⟨adapters, rfl, hadapters⟩
  refine Decides.bind (decides_parseSafetySection hdoc (by decide) hsafety₀) ?_
  rintro _ ⟨safety, rfl, hsafety⟩
  have hkey : "missionPipelines" ∉ ["specVersion", "system", "units"] := by decide
  refine (decides_parseMissionPipelinesSection hdoc hkey (by exact hmissions₀)).congr
    (iff_of_eq (and_true _)).symm ?_
  rintro _ _ ⟨missionPipelines, rfl, hmissions⟩
  obtain ⟨sys, hsys, hcontents⟩ := hsystem
  exact {
    specVersion := hversion
    system := ⟨sys, hsys, ⟨hcontents.name, hcontents.tickRate, hcontents.schedulingPolicy,
      hcontents.enableRealTimeScheduling, hcontents.logLevel, hcontents.eventPoolSize,
      hcontents.eventQueueSize, hcontents.maxProcessingUnits⟩⟩
    units := hunits
    connections := hconnections
    systemPorts := hports
    adapters := hadapters
    safety := hsafety
    missionPipelines := hmissions }

end AxonVex
