import AxonVex.Spec.Validate

/-!
# Spec/Accepted — what an accepted document guarantees

`parse` yields a spec only when no section reported an error, and then the units have different
names (`parse_names`); `validate` accepts only when every unit has a registered type and parameters
that pass (`validate_units`).
-/

namespace AxonVex

open Machinery Machinery.Reported

variable {doc : Json} {spec : SystemSpec} {errors errors' : List SpecError}

/-- **A parsed document** is one no section reports an error about. -/
theorem parse_eq_some (h : SystemSpec.parse doc errors = (some spec, errors')) :
    (parseDocument doc).Clean ∧ (parseDocument doc).value = spec := by
  unfold SystemSpec.parse at h
  split_ifs at h with hobj hclean
  · exact absurd (Prod.mk.inj h).1 (by simp)
  · exact ⟨List.isEmpty_iff.mp hclean, Option.some.inj (Prod.mk.inj h).1⟩
  · exact absurd (Prod.mk.inj h).1 (by simp)

/-! ## Names of units -/

/-- A required string that is read without an error is not empty. -/
theorem requiredString_ne_empty {obj : Json} {key path missing invalid : String}
    (h : (requiredString obj key path missing invalid).Clean) :
    (requiredString obj key path missing invalid).value ≠ "" := by
  unfold requiredString at h ⊢
  split at h
  · exact absurd h clean_refuse
  · split at h
    next hv =>
      rw [if_pos hv]
      simp only [Bool.and_eq_true, bne_iff_ne] at hv
      exact hv.2
    · exact absurd h clean_refuse

/-- The units read so far have different names, all of them seen. -/
structure ParsedUnits.Distinct (parsed : ParsedUnits) : Prop where
  nodup : (parsed.units.map (·.name)).Nodup
  seen : ∀ u ∈ parsed.units, u.name ∈ parsed.seenNames

/-- A name that is read without an error is new, and seen from then on. -/
theorem parseUnitName_new {seenNames : Table String ℕ} {i : ℕ} {base : String} {u : Json}
    (h : (parseUnitName seenNames i base u).Clean) :
    (parseUnitName seenNames i base u).value.1 ∉ seenNames ∧
      (parseUnitName seenNames i base u).value.2 =
        seenNames.insert (parseUnitName seenNames i base u).value.1 i := by
  unfold parseUnitName at h ⊢
  rw [clean_bind] at h
  obtain ⟨hreq, h⟩ := h
  have hne := requiredString_ne_empty hreq
  rw [value_bind]
  rw [if_neg hne] at h ⊢
  split at h
  · exact absurd h clean_refuse
  next hlk => exact ⟨AList.lookup_eq_none.mp hlk, rfl⟩

/-- **A unit that is read without an error has a new name.** -/
theorem ParsedUnits.Distinct.parseUnit {parsed : ParsedUnits} {i : ℕ} {u : Json}
    (hp : parsed.Distinct) (h : (parseUnit parsed i u).Clean) :
    (parseUnit parsed i u).value.Distinct := by
  unfold AxonVex.parseUnit at h ⊢
  dsimp only at h ⊢
  split at h
  · exact absurd h clean_refuse
  next hobj =>
    rw [if_neg hobj]
    simp only [clean_bind, value_bind, value_pure] at h ⊢
    obtain ⟨hnew, hseen⟩ := parseUnitName_new h.2.1
    rw [hseen]
    refine ⟨?_, fun v hv => ?_⟩
    · rw [List.map_append, List.nodup_append]
      refine ⟨hp.nodup, by simp, fun name hname name' hname' => ?_⟩
      rintro rfl
      obtain ⟨v, hv, rfl⟩ := List.mem_map.mp hname
      simp only [List.map_cons, List.map_nil, List.mem_singleton] at hname'
      exact hnew (hname' ▸ hp.seen v hv)
    · rw [AList.mem_insert]
      rcases List.mem_append.mp hv with hv | hv
      · exact .inr (hp.seen v hv)
      · exact .inl (congrArg SpecUnit.name (List.mem_singleton.mp hv))

theorem parseUnitsSection_names (h : (parseUnitsSection doc spec).Clean) (hspec : spec.units = []) :
    ((parseUnitsSection doc spec).value.units.map (·.name)).Nodup := by
  unfold parseUnitsSection at h ⊢
  split at h
  · exact absurd h clean_refuse
  · split at h
    · exact absurd h clean_refuse
    next harr =>
      rw [if_neg harr]
      simp only [clean_bind, value_bind, value_pure, hspec, List.nil_append] at h ⊢
      have hdistinct := foldlM_invariant ParsedUnits.Distinct (b := {})
        ⟨List.nodup_nil, fun u hu => absurd hu (by simp)⟩ h.1
        fun b a _ hb hclean => hb.parseUnit hclean
      exact hdistinct.nodup

/-- The sections before the units declare none. -/
theorem units_before (doc : Json) :
    (parseSystemSection doc (parseSpecVersion doc {}).value).value.units = [] := by
  have hversion : (parseSpecVersion doc {}).value.units = [] := by
    unfold parseSpecVersion
    split
    · rfl
    · split_ifs <;> rfl
  have hsystem (spec : SystemSpec) : (parseSystemSection doc spec).value.units = spec.units := by
    unfold parseSystemSection
    split
    · rfl
    · split_ifs <;> rfl
  exact (hsystem _).trans hversion

/-- The sections after the units leave them alone. -/
theorem parseDocument_units (doc : Json) : (parseDocument doc).value.units =
    (parseUnitsSection doc (parseSystemSection doc (parseSpecVersion doc {}).value).value).value.units := by
  have hconnections (spec : SystemSpec) :
      (parseConnectionsSection doc spec).value.units = spec.units := by
    unfold parseConnectionsSection
    split
    · rfl
    · split_ifs <;> rfl
  have hports (spec : SystemSpec) : (parseSystemPortsSection doc spec).value.units = spec.units := by
    unfold parseSystemPortsSection
    split
    · rfl
    · split_ifs <;> rfl
  have hadapters (spec : SystemSpec) : (parseAdaptersSection doc spec).value.units = spec.units := by
    unfold parseAdaptersSection
    split
    · rfl
    · split_ifs <;> rfl
  have hsafety (spec : SystemSpec) : (parseSafetySection doc spec).value.units = spec.units := by
    unfold parseSafetySection
    split
    · rfl
    · split_ifs <;> rfl
  have hmissions (spec : SystemSpec) :
      (parseMissionPipelinesSection doc spec).value.units = spec.units := by
    unfold parseMissionPipelinesSection
    split
    · rfl
    · split_ifs <;> rfl
  simp only [parseDocument, value_bind, hmissions, hsafety, hadapters, hports, hconnections]

/-- **The units of a parsed document have different names.** -/
theorem parse_names (h : SystemSpec.parse doc errors = (some spec, errors')) :
    (spec.units.map (·.name)).Nodup := by
  obtain ⟨hclean, rfl⟩ := parse_eq_some h
  rw [parseDocument_units]
  refine parseUnitsSection_names ?_ (units_before doc)
  simp only [parseDocument, clean_bind] at hclean
  exact hclean.2.2.2.1

/-! ## References -/

/-- Every reference of the spec is a good one. -/
structure SystemSpec.RefsValid (spec : SystemSpec) : Prop where
  connections : ∀ c ∈ spec.connections,
    isValidPortRef c.source = true ∧ isValidPortRef c.target = true
  inputs : ∀ e ∈ spec.systemPorts.inputs.entries, isValidPortRef e.2 = true
  outputs : ∀ e ∈ spec.systemPorts.outputs.entries, isValidPortRef e.2 = true

/-- A reference that is read is a good one. -/
theorem checkRef_valid {obj : Json} {key path ref : String}
    (h : (checkRef obj key path).value = some ref) : isValidPortRef ref = true := by
  unfold checkRef at h
  split at h
  · cases h
  · split_ifs at h with hstring hvalid
    · cases h
    · cases h
    · obtain rfl : _ = ref := Option.some.inj h
      simpa using hvalid

theorem parseConnection_valid {base : String} {c : Json} :
    ∀ sc ∈ (parseConnection base c).value,
      isValidPortRef sc.source = true ∧ isValidPortRef sc.target = true := by
  intro sc hsc
  simp only [parseConnection, value_bind, value_pure] at hsc
  split at hsc
  next source target hsource htarget =>
    obtain rfl := List.mem_singleton.mp hsc
    exact ⟨checkRef_valid hsource, checkRef_valid htarget⟩
  · exact absurd hsc (by simp)

/-- What holds of each parsed entry holds of all. -/
theorem forall_parseEntries {α : Type} {p : α → Prop} {entries : List Json} {path kind : String}
    {parseEntry : String → Json → Parsed (List α)}
    (h : (parseEntries entries path kind parseEntry).Clean)
    (hp : ∀ base entry, ∀ a ∈ (parseEntry base entry).value, p a) :
    ∀ a ∈ (parseEntries entries path kind parseEntry).value, p a := by
  refine foldlM_invariant (fun parsed => ∀ a ∈ parsed, p a) (by simp) h ?_
  intro parsed entry _ hparsed hclean a ha
  split_ifs at hclean ha with hobj
  · exact absurd hclean clean_refuse
  · simp only [value_bind, value_pure, List.mem_append] at ha
    exact ha.elim (hparsed a) (hp _ _ a)

theorem parseMap_valid {sp : Json} {key : String} {target : Table String String}
    (h : (parseMap sp key target).Clean)
    (htarget : ∀ e ∈ target.entries, isValidPortRef e.2 = true) :
    ∀ e ∈ (parseMap sp key target).value.entries, isValidPortRef e.2 = true := by
  unfold parseMap at h ⊢
  split at h
  · exact htarget
  · split_ifs at h ⊢ with hobj
    · exact absurd h clean_refuse
    · refine foldlM_invariant
        (fun ports => ∀ e ∈ ports.entries, isValidPortRef e.2 = true) htarget h ?_
      intro ports entry _ hports hclean e he
      unfold parsePortEntry at hclean he
      split_ifs at hclean he with hstring hvalid
      · exact absurd hclean clean_refuse
      · exact absurd hclean clean_refuse
      · rcases List.mem_cons.mp he with rfl | he
        · simpa using hvalid
        · exact hports e ((List.kerase_sublist _ _).subset he)

theorem connections_valid (h : (parseConnectionsSection doc spec).Clean) (hspec : spec.RefsValid) :
    (parseConnectionsSection doc spec).value.RefsValid := by
  unfold parseConnectionsSection at h ⊢
  split at h
  · exact hspec
  · split_ifs at h ⊢ with harr
    · exact hspec
    · refine ⟨fun c hc => ?_, hspec.inputs, hspec.outputs⟩
      rcases List.mem_append.mp hc with hc | hc
      · exact hspec.connections c hc
      · exact forall_parseEntries (clean_bind.mp h).1 (fun _ _ => parseConnection_valid) c hc

theorem systemPorts_valid (h : (parseSystemPortsSection doc spec).Clean) (hspec : spec.RefsValid) :
    (parseSystemPortsSection doc spec).value.RefsValid := by
  unfold parseSystemPortsSection at h ⊢
  split at h
  · exact hspec
  · split_ifs at h ⊢ with hobj
    · exact hspec
    · obtain ⟨-, hinputs, houtputs, -⟩ := by simpa only [clean_bind] using h
      exact ⟨hspec.connections, parseMap_valid hinputs hspec.inputs,
        parseMap_valid houtputs hspec.outputs⟩

/-- **The references of a parsed document are good ones.** -/
theorem parse_refs (h : SystemSpec.parse doc errors = (some spec, errors')) : spec.RefsValid := by
  -- the sections that read no reference
  have hversion (spec : SystemSpec) (h : spec.RefsValid) :
      (parseSpecVersion doc spec).value.RefsValid := by
    unfold parseSpecVersion
    split
    · exact h
    · split_ifs <;> exact ⟨h.connections, h.inputs, h.outputs⟩
  have hsystem (spec : SystemSpec) (h : spec.RefsValid) :
      (parseSystemSection doc spec).value.RefsValid := by
    unfold parseSystemSection
    split
    · exact h
    · split_ifs <;> exact ⟨h.connections, h.inputs, h.outputs⟩
  have hunits (spec : SystemSpec) (h : spec.RefsValid) :
      (parseUnitsSection doc spec).value.RefsValid := by
    unfold parseUnitsSection
    split
    · exact h
    · split_ifs <;> exact ⟨h.connections, h.inputs, h.outputs⟩
  have hadapters (spec : SystemSpec) (h : spec.RefsValid) :
      (parseAdaptersSection doc spec).value.RefsValid := by
    unfold parseAdaptersSection
    split
    · exact h
    · split_ifs <;> exact ⟨h.connections, h.inputs, h.outputs⟩
  have hsafety (spec : SystemSpec) (h : spec.RefsValid) :
      (parseSafetySection doc spec).value.RefsValid := by
    unfold parseSafetySection
    split
    · exact h
    · split_ifs <;> exact ⟨h.connections, h.inputs, h.outputs⟩
  have hmissions (spec : SystemSpec) (h : spec.RefsValid) :
      (parseMissionPipelinesSection doc spec).value.RefsValid := by
    unfold parseMissionPipelinesSection
    split
    · exact h
    · split_ifs <;> exact ⟨h.connections, h.inputs, h.outputs⟩
  obtain ⟨hclean, rfl⟩ := parse_eq_some h
  simp only [parseDocument, clean_bind, value_bind] at hclean ⊢
  obtain ⟨-, -, -, -, hconnections, hports, -⟩ := hclean
  refine hmissions _ (hsafety _ (hadapters _ (systemPorts_valid hports (connections_valid hconnections
    (hunits _ (hsystem _ (hversion _ ⟨?_, ?_, ?_⟩)))))))
  all_goals exact fun _ h => absurd h (by simp)

/-! ## What `validate` checks of the units -/

variable {factory : UnitFactory} {dump : Json → String} {su : SpecUnit}

/-- **Each unit of a validated spec has a registered type and parameters that pass.** -/
theorem validate_units (h : (spec.validate factory dump errors).1 = true) (hsu : su ∈ spec.units) :
    ∃ entry, factory.types.lookup su.type = some entry ∧
      validateParams dump entry.descriptor su.params = [] := by
  have hclean : (spec.validateAll factory dump).Clean := List.isEmpty_iff.mp h
  simp only [SystemSpec.validateAll, clean_bind, clean_forM] at hclean
  obtain ⟨i, hi, rfl⟩ := List.getElem_of_mem hsu
  have hunit := hclean.1 (spec.units[i], i) (List.mem_zipIdx_iff_getElem?.mpr (by simp [hi]))
  unfold SystemSpec.validateUnit at hunit
  split at hunit
  · exact absurd hunit (clean_report _)
  next descriptor hd =>
    obtain ⟨entry, hentry, rfl⟩ := UnitFactory.describe_eq_some.mp hd
    refine ⟨entry, hentry, List.eq_nil_iff_forall_not_mem.mpr fun issue hissue => ?_⟩
    exact clean_report _ (clean_forM.mp hunit issue hissue)

end AxonVex
