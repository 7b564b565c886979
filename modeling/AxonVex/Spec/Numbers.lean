import AxonVex.Spec.Schematic

/-!
# Spec/Numbers — the numbers of a parsed document

    document ──get<int64_t>()──▸ range check ──static_cast──▸ microseconds, size_t, int

Every number of a spec is checked as an `int64_t` and then stored.  `microseconds` and `size_t` hold
each value that passes; the two fields stored as `int` are narrowed without a check.

* `keepsNumbers_iff` — the spec of an accepted document has the numbers that are written exactly
  when the two fields of type `int` are written within `int`.
* `factor_truncated` — a `downSamplingFactor` of `2 ^ 32` is accepted and becomes 0.
-/

namespace AxonVex

open Machinery Machinery.Reported

/-- The integers of a value, at any depth, are stored as `int64_t`. -/
inductive Json.IntegersFit : Json → Prop
  | null : IntegersFit .null
  | boolean (b : Bool) : IntegersFit (.boolean b)
  | integer {z : ℤ} : -2 ^ 63 ≤ z → z < 2 ^ 63 → IntegersFit (.integer z)
  | float (v : ℚ) : IntegersFit (.float v)
  | string (s : String) : IntegersFit (.string s)
  | array {elements : List Json} : (∀ j ∈ elements, IntegersFit j) → IntegersFit (.array elements)
  | object {members : List (String × Json)} :
      (∀ m ∈ members, IntegersFit m.2) → IntegersFit (.object members)

namespace Json.IntegersFit

variable {j v : Json} {key : String}

theorem elements (h : j.IntegersFit) : ∀ v ∈ j.elements, v.IntegersFit := by
  cases h with
  | array h => exact h
  | _ => exact fun v hv => absurd hv List.not_mem_nil

theorem members (h : j.IntegersFit) : ∀ m ∈ j.members, m.2.IntegersFit := by
  cases h with
  | object h => exact h
  | _ => exact fun m hm => absurd hm List.not_mem_nil

theorem find? (h : j.IntegersFit) (hv : j.find? key = some v) : v.IntegersFit := by
  obtain ⟨before, after, hms, -⟩ := List.lookup_eq_some_iff.mp hv
  exact h.members (key, v) (by rw [hms]; simp)

/-- A stored integer is read as it is. -/
theorem getInt64 {z : ℤ} (h : (Json.integer z).IntegersFit) : (Json.integer z).getInt64 = z := by
  cases h with
  | integer hlow hhigh =>
    change z.bmod (2 ^ 64) = z
    rw [Int.bmod_eq_of_le] <;> omega

end Json.IntegersFit

/-! ## What is written and what is stored -/

/-- The number `n` is the written integer, which is at least `lower`, behind a conversion. -/
def IsWritten (convert : ℤ → ℤ) (lower : ℤ) (v : Json) (n : ℤ) : Prop :=
  ∃ z, v = .integer z ∧ lower ≤ z ∧ n = convert z

/-- The numbers of `system`. -/
structure SystemNumbers (sys : Json) (spec : SystemSpec) : Prop where
  tickRate : Field sys "tickRateUs" (IsWritten id 1) 100 spec.tickRate
  eventPoolSize : Field sys "eventPoolSize" (IsWritten id 1) 1024 (spec.eventPoolSize : ℤ)
  eventQueueSize : Field sys "eventQueueSize" (IsWritten id 1) 256 (spec.eventQueueSize : ℤ)
  maxProcessingUnits : Field sys "maxProcessingUnits" (IsWritten id 1) 1000
    (spec.maxProcessingUnits : ℤ)

/-- The numbers of the `timing` of a unit. -/
structure TimingNumbers (t : Json) (timing : TimingConstraints) : Prop where
  period : Field t "periodUs" (IsWritten id 0) 0 timing.period
  deadline : Field t "deadlineUs" (IsWritten id 0) 0 timing.deadline
  wcet : Field t "wcetUs" (IsWritten id 0) 0 timing.wcet

/-- The numbers of an entry of `units`. -/
structure UnitNumbers (convert : ℤ → ℤ) (u : Json) (su : SpecUnit) : Prop where
  timing : Field u "timing" TimingNumbers {} su.timing
  downSamplingFactor : Field u "downSamplingFactor" (IsWritten convert 1) 1 su.downSamplingFactor

/-- The number of `safety`. -/
def SafetyNumbers (convert : ℤ → ℤ) (s : Json) (safety : SpecSafety) : Prop :=
  Field s "evaluationPeriodMs" (IsWritten convert 1) 100 safety.evaluationPeriodMs

/-- **The numbers of a spec are those of its document**, where the two that are stored as `int` go
through `convert`. -/
structure Numbers (convert : ℤ → ℤ) (doc : Json) (spec : SystemSpec) : Prop where
  system : ∃ sys, doc.find? "system" = some sys ∧ SystemNumbers sys spec
  units : ∃ units, doc.find? "units" = some (.array units) ∧
    List.Forall₂ (UnitNumbers convert) units spec.units
  safety : Field doc "safety" (SafetyNumbers convert) {} spec.safety

/-! ## The readers -/

section Readers

variable {obj : Json} {key path : String}

/-- **An integer field** yields the integer that is written, through the conversion `cast`; `embed`
reads the stored value as an integer again. -/
theorem yields_integerField {α : Type} {lower : ℤ} {requirement : String} {cast : ℤ → α}
    {fallback : α} (convert : ℤ → ℤ) (embed : α → ℤ) (hobj : obj.IntegersFit)
    (hcast : ∀ z, lower ≤ z → embed (cast z) = convert z) :
    (integerField obj key path lower requirement cast fallback).Yields fun a =>
      Field obj key (IsWritten convert lower) (embed fallback) (embed a) := by
  intro hclean
  unfold integerField at hclean ⊢
  cases hv : obj.find? key with
  | none => exact .inl ⟨hv, rfl⟩
  | some v =>
    simp only [hv] at hclean ⊢
    split at hclean
    next hok =>
      rw [if_pos hok]
      obtain ⟨hint, hlower⟩ := (Bool.and_eq_true _ _).mp hok
      have hfit : v.IntegersFit := hobj.find? hv
      cases v with
      | integer z =>
        rw [hfit.getInt64] at hlower ⊢
        exact .inr ⟨_, hv, z, rfl, of_decide_eq_true hlower, hcast z (of_decide_eq_true hlower)⟩
      | _ => exact absurd hint (by simp [Json.isNumberInteger])
    · exact absurd hclean clean_refuse

end Readers

/-! ## The sections -/

section Sections

variable {doc : Json} {spec : SystemSpec}

theorem yields_parseSpecVersion :
    (parseSpecVersion doc {}).Yields fun spec => ∃ specVersion, spec = { specVersion } := by
  intro hclean
  unfold parseSpecVersion at hclean ⊢
  split at hclean
  · exact absurd hclean clean_refuse
  · split_ifs at hclean ⊢
    · exact absurd hclean clean_refuse
    · exact ⟨_, rfl⟩
    · exact absurd hclean clean_refuse

/-- **The numbers of `system`**, on top of the defaults. -/
theorem yields_parseSystemSection (hdoc : doc.IntegersFit) (specVersion : String) :
    (parseSystemSection doc { specVersion }).Yields fun spec =>
      spec.units = [] ∧ spec.safety = {} ∧
        ∃ sys, doc.find? "system" = some sys ∧ SystemNumbers sys spec := by
  intro hclean
  unfold parseSystemSection at hclean ⊢
  cases hsys : doc.find? "system" with
  | none =>
    rw [hsys] at hclean
    exact absurd hclean clean_refuse
  | some sys =>
    have hfit : sys.IntegersFit := hdoc.find? hsys
    simp only [hsys] at hclean ⊢
    split at hclean
    · exact absurd hclean clean_refuse
    next hobj =>
      rw [if_neg hobj]
      have hsize (key path : String) (fallback : ℕ) :
          (integerField sys key path 1 "a positive integer" Int.toNat fallback).Yields fun n =>
            Field sys key (IsWritten id 1) fallback n :=
        yields_integerField id (fun n : ℕ => (n : ℤ)) hfit
          fun z (hz : 1 ≤ z) => Int.toNat_of_nonneg (Int.le_trans Int.one_nonneg hz)
      refine Yields.skip (R := fun spec => spec.units = [] ∧ spec.safety = {} ∧
          ∃ sys', some sys = some sys' ∧ SystemNumbers sys' spec)
        (fun _ => Yields.skip fun _ => Yields.bind
        (yields_integerField id id hfit fun _ _ => rfl) fun _ htick =>
        Yields.skip fun _ => Yields.skip fun _ => Yields.skip fun _ =>
        Yields.bind (hsize "eventPoolSize" _ _) fun _ hpool =>
        Yields.bind (hsize "eventQueueSize" _ _) fun _ hqueue =>
        Yields.bind (hsize "maxProcessingUnits" _ _) fun _ hmax => Yields.pure ?_) hclean
      exact ⟨rfl, rfl, sys, rfl, htick, hpool, hqueue, hmax⟩

theorem yields_parseTiming (base : String) {u : Json} (hu : u.IntegersFit) :
    (parseTiming base u).Yields fun timing => Field u "timing" TimingNumbers {} timing.2 := by
  intro hclean
  unfold parseTiming at hclean ⊢
  cases ht : u.find? "timing" with
  | none => exact .inl ⟨ht, rfl⟩
  | some t =>
    have hfit : t.IntegersFit := hu.find? ht
    simp only [ht] at hclean ⊢
    split at hclean
    · exact absurd hclean clean_refuse
    next hobj =>
      rw [if_neg hobj]
      refine .inr ⟨t, ht, ?_⟩
      exact Yields.skip (R := fun timing => TimingNumbers t timing.2) (fun _ =>
        Yields.bind (yields_integerField id id hfit fun _ _ => rfl) fun _ hperiod =>
        Yields.bind (yields_integerField id id hfit fun _ _ => rfl) fun _ hdeadline =>
        Yields.bind (yields_integerField id id hfit fun _ _ => rfl) fun _ hwcet =>
        Yields.skip fun _ => Yields.skip fun _ =>
          Yields.pure ⟨hperiod, hdeadline, hwcet⟩) hclean

/-- **The numbers of a unit**, behind the cast to `int`. -/
theorem yields_parseUnit (parsed : ParsedUnits) (i : ℕ) {u : Json} (hu : u.IntegersFit) :
    (parseUnit parsed i u).Yields fun parsed' =>
      ∃ su, parsed'.units = parsed.units ++ [su] ∧ UnitNumbers (wrapSigned 32) u su := by
  intro hclean
  unfold parseUnit at hclean ⊢
  dsimp only at hclean ⊢
  split at hclean
  · exact absurd hclean clean_refuse
  next hobj =>
    rw [if_neg hobj]
    exact Yields.skip (R := fun parsed' => ∃ su, parsed'.units = parsed.units ++ [su] ∧
        UnitNumbers (wrapSigned 32) u su)
      (fun _ => Yields.skip fun _ => Yields.skip fun _ => Yields.skip fun _ =>
      Yields.bind (yields_parseTiming _ hu) fun _ htiming =>
      Yields.bind (yields_integerField (wrapSigned 32) id hu fun _ _ => rfl) fun _ hfactor =>
        Yields.pure ⟨_, rfl, htiming, hfactor⟩) hclean

/-- The units, one after the other, behind the units before. -/
theorem yields_foldlM_parseUnit (parsed : ParsedUnits) {entries : List (Json × ℕ)}
    (hfit : ∀ e ∈ entries, e.1.IntegersFit) :
    (entries.foldlM (fun parsed u => parseUnit parsed u.2 u.1) parsed).Yields fun parsed' =>
      ∃ units, parsed'.units = parsed.units ++ units ∧
        List.Forall₂ (fun e su => UnitNumbers (wrapSigned 32) e.1 su) entries units := by
  induction entries generalizing parsed with
  | nil => exact Yields.pure ⟨[], (List.append_nil _).symm, .nil⟩
  | cons e entries ih =>
    rw [List.foldlM_cons]
    refine Yields.bind (yields_parseUnit parsed e.2 (hfit e List.mem_cons_self)) ?_
    rintro parsed' ⟨su, hunits, hsu⟩ hclean
    obtain ⟨units, hunits', hforall⟩ :=
      ih parsed' (fun e he => hfit e (List.mem_cons_of_mem _ he)) hclean
    exact ⟨su :: units, by rw [hunits', hunits]; simp, .cons hsu hforall⟩

theorem yields_parseUnitsSection (hdoc : doc.IntegersFit) (hspec : spec.units = []) :
    (parseUnitsSection doc spec).Yields fun spec' => ∃ units, spec' = { spec with units } ∧
      ∃ elements, doc.find? "units" = some (.array elements) ∧
        List.Forall₂ (UnitNumbers (wrapSigned 32)) elements units := by
  intro hclean
  unfold parseUnitsSection at hclean ⊢
  cases hunits : doc.find? "units" with
  | none =>
    rw [hunits] at hclean
    exact absurd hclean clean_refuse
  | some v =>
    simp only [hunits] at hclean ⊢
    split at hclean
    · exact absurd hclean clean_refuse
    next hbad =>
      rw [if_neg hbad]
      have helements : v = .array v.elements := by
        cases v with
        | array elements => rfl
        | _ => exact absurd rfl hbad
      have hfit : ∀ e ∈ v.elements.zipIdx, e.1.IntegersFit :=
        (forall_zipIdx Json.IntegersFit).mpr (hdoc.find? hunits).elements
      have hfold := yields_foldlM_parseUnit {} hfit (clean_bind.mp hclean).1
      obtain ⟨units, hvalue, hforall⟩ := hfold
      have hfst := (List.forall₂_map_left_iff (f := Prod.fst)
        (R := UnitNumbers (wrapSigned 32))).mpr hforall
      rw [List.zipIdx_map_fst] at hfst
      refine ⟨units, ?_, v.elements, by rw [← helements], hfst⟩
      rw [value_bind, value_pure, hspec, hvalue]
      rfl

theorem yields_parseSafetySection (hdoc : doc.IntegersFit) (hspec : spec.safety = {}) :
    (parseSafetySection doc spec).Yields fun spec' => ∃ hasSafety safety,
      spec' = { spec with hasSafety, safety } ∧
        Field doc "safety" (SafetyNumbers (wrapSigned 32)) {} safety := by
  intro hclean
  unfold parseSafetySection at hclean ⊢
  cases hs : doc.find? "safety" with
  | none => exact ⟨spec.hasSafety, spec.safety, rfl, .inl ⟨hs, hspec⟩⟩
  | some s =>
    have hfit : s.IntegersFit := hdoc.find? hs
    simp only [hs, hspec] at hclean ⊢
    split at hclean
    · exact absurd hclean clean_refuse
    next hobj =>
      rw [if_neg hobj]
      exact Yields.skip (R := fun spec' => ∃ hasSafety safety,
          spec' = { spec with hasSafety, safety } ∧
            Field doc "safety" (SafetyNumbers (wrapSigned 32)) {} safety)
        (fun _ => Yields.bind
          (yields_integerField (wrapSigned 32) id hfit fun _ _ => rfl) fun period hperiod =>
          Yields.skip fun policies => Yields.pure
            ⟨true, ⟨period, [] ++ policies⟩, rfl, .inr ⟨s, hs, hperiod⟩⟩) hclean

/-- What a section without numbers leaves alone. -/
structure SameNumbers (spec spec' : SystemSpec) : Prop where
  tickRate : spec'.tickRate = spec.tickRate
  eventPoolSize : spec'.eventPoolSize = spec.eventPoolSize
  eventQueueSize : spec'.eventQueueSize = spec.eventQueueSize
  maxProcessingUnits : spec'.maxProcessingUnits = spec.maxProcessingUnits
  units : spec'.units = spec.units
  safety : spec'.safety = spec.safety

theorem SameNumbers.refl (spec : SystemSpec) : SameNumbers spec spec :=
  ⟨rfl, rfl, rfl, rfl, rfl, rfl⟩

theorem sameNumbers_parseConnectionsSection (doc : Json) (spec : SystemSpec) :
    SameNumbers spec (parseConnectionsSection doc spec).value := by
  unfold parseConnectionsSection
  split
  · exact .refl spec
  · split_ifs
    · exact .refl spec
    · exact ⟨rfl, rfl, rfl, rfl, rfl, rfl⟩

theorem sameNumbers_parseSystemPortsSection (doc : Json) (spec : SystemSpec) :
    SameNumbers spec (parseSystemPortsSection doc spec).value := by
  unfold parseSystemPortsSection
  split
  · exact .refl spec
  · split_ifs
    · exact .refl spec
    · exact ⟨rfl, rfl, rfl, rfl, rfl, rfl⟩

theorem sameNumbers_parseAdaptersSection (doc : Json) (spec : SystemSpec) :
    SameNumbers spec (parseAdaptersSection doc spec).value := by
  unfold parseAdaptersSection
  split
  · exact .refl spec
  · split_ifs
    · exact .refl spec
    · exact ⟨rfl, rfl, rfl, rfl, rfl, rfl⟩

theorem sameNumbers_parseMissionPipelinesSection (doc : Json) (spec : SystemSpec) :
    SameNumbers spec (parseMissionPipelinesSection doc spec).value := by
  unfold parseMissionPipelinesSection
  split
  · exact .refl spec
  · split_ifs
    · exact .refl spec
    · exact ⟨rfl, rfl, rfl, rfl, rfl, rfl⟩

theorem SameNumbers.trans {spec spec' spec'' : SystemSpec} (h : SameNumbers spec spec')
    (h' : SameNumbers spec' spec'') : SameNumbers spec spec'' :=
  ⟨h'.tickRate.trans h.tickRate, h'.eventPoolSize.trans h.eventPoolSize,
    h'.eventQueueSize.trans h.eventQueueSize, h'.maxProcessingUnits.trans h.maxProcessingUnits,
    h'.units.trans h.units, h'.safety.trans h.safety⟩

/-- **The numbers of a document** that is parsed without an error. -/
theorem yields_parseDocument (hdoc : doc.IntegersFit) :
    (parseDocument doc).Yields (Numbers (wrapSigned 32) doc) := by
  refine Yields.skip fun _ => Yields.bind yields_parseSpecVersion ?_
  rintro _ ⟨specVersion, rfl⟩
  refine Yields.bind (yields_parseSystemSection hdoc specVersion) ?_
  rintro spec ⟨hunits₀, hsafety₀, sys, hsys, hsystem⟩
  refine Yields.bind (yields_parseUnitsSection hdoc hunits₀) ?_
  rintro _ ⟨units, rfl, elements, helements, hunits⟩
  -- the three sections between leave the numbers alone
  refine Yields.bind (fun _ => sameNumbers_parseConnectionsSection doc _) fun spec₁ h₁ => ?_
  refine Yields.bind (fun _ => sameNumbers_parseSystemPortsSection doc _) fun spec₂ h₂ => ?_
  refine Yields.bind (fun _ => sameNumbers_parseAdaptersSection doc _) fun spec₃ h₃ => ?_
  have h := (h₁.trans h₂).trans h₃
  refine Yields.bind (yields_parseSafetySection hdoc (h.safety.trans hsafety₀)) ?_
  rintro _ ⟨hasSafety, safety, rfl, hsafety⟩ -
  have h₄ := sameNumbers_parseMissionPipelinesSection doc { spec₃ with hasSafety, safety }
  refine ⟨⟨sys, hsys, ?_, ?_, ?_, ?_⟩, ⟨elements, helements, ?_⟩, ?_⟩
  · rw [h₄.tickRate]
    exact h.tickRate ▸ hsystem.tickRate
  · rw [h₄.eventPoolSize]
    exact h.eventPoolSize ▸ hsystem.eventPoolSize
  · rw [h₄.eventQueueSize]
    exact h.eventQueueSize ▸ hsystem.eventQueueSize
  · rw [h₄.maxProcessingUnits]
    exact h.maxProcessingUnits ▸ hsystem.maxProcessingUnits
  · rw [h₄.units]
    exact h.units ▸ hunits
  · rw [h₄.safety]
    exact hsafety

end Sections

/-! ## What is kept -/

/-- **The spec keeps the numbers**: each field is the integer written, or its default; in particular
every down-sampling factor is at least 1 and the evaluation period is positive. -/
structure KeepsNumbers (doc : Json) (spec : SystemSpec) : Prop where
  numbers : Numbers id doc spec
  factor_pos : ∀ su ∈ spec.units, 1 ≤ su.downSamplingFactor
  period_pos : 0 < spec.safety.evaluationPeriodMs

section Fields

variable {obj : Json} {key : String} {fallback n : ℤ}

/-- **A field of type `int` is kept exactly when it is written within `int`.** -/
theorem written_iff (h : Field obj key (IsWritten (wrapSigned 32) 1) fallback n) :
    Field obj key (IsWritten id 1) fallback n ↔ MemberFits obj key := by
  have hconverted {convert : ℤ → ℤ} (h : Field obj key (IsWritten convert 1) fallback n) :
      Field obj key (IsConverted convert) fallback n := by
    refine h.imp_right ?_
    rintro ⟨v, hv, z, rfl, -, hn⟩
    exact ⟨_, hv, z, rfl, hn⟩
  constructor
  · exact fun h' => (converted_iff (hconverted h)).mp (hconverted h')
  · intro hfits
    refine h.imp_right ?_
    rintro ⟨v, hv, z, rfl, hz, hn⟩
    exact ⟨_, hv, z, rfl, hz, hn.trans (wrapSigned_eq_self.mpr (hfits _ z hv rfl))⟩

/-- A kept field with a positive default is positive. -/
theorem Field.pos (h : Field obj key (IsWritten id 1) fallback n) (hfallback : 1 ≤ fallback) :
    1 ≤ n := by
  obtain ⟨-, rfl⟩ | ⟨v, -, z, -, hz, rfl⟩ := h
  · exact hfallback
  · exact hz

end Fields

variable {doc : Json} {spec : SystemSpec} {errors errors' : List SpecError}

theorem UnitNumbers.kept_iff {u : Json} {su : SpecUnit} (h : UnitNumbers (wrapSigned 32) u su) :
    UnitNumbers id u su ↔ MemberFits u "downSamplingFactor" := by
  rw [← written_iff h.downSamplingFactor]
  exact ⟨fun h' => h'.downSamplingFactor, fun h' => ⟨h.timing, h'⟩⟩

/-- The numbers that are stored are those that are written exactly when they fit. -/
theorem Numbers.id_iff (h : Numbers (wrapSigned 32) doc spec) :
    Numbers id doc spec ↔ IntsFit doc := by
  obtain ⟨units, hunits, hforall⟩ := h.units
  have hkept_iff := forall₂_iff_forall hforall fun _ _ hu => hu.kept_iff
  constructor
  · intro h'
    refine ⟨fun us hus => ?_, fun s hs => ?_⟩
    · obtain rfl := Json.array.inj (Option.some.inj (hunits.symm.trans hus))
      obtain ⟨units', hunits', hforall'⟩ := h'.units
      obtain rfl := Json.array.inj (Option.some.inj (hunits.symm.trans hunits'))
      exact hkept_iff.mp hforall'
    · exact (written_iff (h.safety.of_some hs)).mp (h'.safety.of_some hs)
  · intro hfits
    refine ⟨h.system, ⟨units, hunits, hkept_iff.mpr (hfits.downSamplingFactor units hunits)⟩, ?_⟩
    refine h.safety.imp_right ?_
    rintro ⟨s, hs, hperiod⟩
    exact ⟨s, hs, (written_iff hperiod).mpr (hfits.evaluationPeriodMs s hs)⟩

/-- Numbers that are kept are in range. -/
theorem Numbers.keeps (h : Numbers id doc spec) : KeepsNumbers doc spec := by
  obtain ⟨units, -, hforall⟩ := h.units
  refine ⟨h, fun su hsu => ?_, ?_⟩
  · obtain ⟨i, hi, rfl⟩ := List.getElem_of_mem hsu
    have hunit := (List.forall₂_iff_get.mp hforall).2 i (hforall.length_eq ▸ hi) hi
    exact hunit.downSamplingFactor.pos le_rfl
  · obtain ⟨-, hdefault⟩ | ⟨s, -, hperiod⟩ := h.safety
    · rw [hdefault]
      decide
    · exact Field.pos hperiod (by decide)

/-- **The numbers of an accepted document are kept exactly when the two fields of type `int` are
written within `int`.** -/
theorem keepsNumbers_iff (hdoc : doc.IntegersFit)
    (h : SystemSpec.parse doc errors = (some spec, errors')) :
    KeepsNumbers doc spec ↔ IntsFit doc := by
  obtain ⟨hclean, rfl⟩ := parse_eq_some h
  rw [← (yields_parseDocument hdoc hclean).id_iff]
  exact ⟨fun hkept => hkept.numbers, fun hnumbers => hnumbers.keeps⟩

/-- A document with one unit and this down-sampling factor. -/
def oneUnit (factor : ℤ) : Json :=
  .object [("specVersion", .string "1.0"), ("system", .object [("name", .string "plant")]),
    ("units", .array [.object [("name", .string "camera"), ("type", .string "Camera"),
      ("downSamplingFactor", .integer factor)]])]

theorem integersFit_oneUnit {factor : ℤ} (hlow : -2 ^ 63 ≤ factor) (hhigh : factor < 2 ^ 63) :
    (oneUnit factor).IntegersFit := by
  refine .object fun m hm => ?_
  simp only [List.mem_cons, List.not_mem_nil, or_false] at hm
  rcases hm with rfl | rfl | rfl
  · exact .string _
  · refine .object fun m hm => ?_
    obtain rfl := List.mem_singleton.mp hm
    exact .string _
  · refine .array fun u hu => ?_
    obtain rfl := List.mem_singleton.mp hu
    refine .object fun m hm => ?_
    simp only [List.mem_cons, List.not_mem_nil, or_false] at hm
    rcases hm with rfl | rfl | rfl
    · exact .string _
    · exact .string _
    · exact .integer hlow hhigh

theorem parse_oneUnit (factor : ℤ)
    (hok : (SystemSpec.parse (oneUnit factor) []).1.isSome = true) :
    ∃ spec errors', SystemSpec.parse (oneUnit factor) [] = (some spec, errors') := by
  obtain ⟨spec, hspec⟩ := Option.isSome_iff_exists.mp hok
  exact ⟨spec, _, Prod.ext hspec rfl⟩

/-- A factor of 4 is kept. -/
theorem keepsNumbers_oneUnit : ∃ spec, (SystemSpec.parse (oneUnit 4) []).1 = some spec ∧
    (KeepsNumbers (oneUnit 4) spec ↔ IntsFit (oneUnit 4)) := by
  obtain ⟨spec, errors', h⟩ := parse_oneUnit 4 (by decide +kernel)
  exact ⟨spec, congrArg Prod.fst h,
    keepsNumbers_iff (integersFit_oneUnit (by decide) (by decide)) h⟩

/-- **A factor of `2 ^ 32` is accepted and stored as 0.** -/
theorem factor_truncated : ¬ ∀ doc spec errors errors', doc.IntegersFit →
    SystemSpec.parse doc errors = (some spec, errors') → KeepsNumbers doc spec := by
  intro hall
  obtain ⟨spec, errors', h⟩ := parse_oneUnit (2 ^ 32) (by decide +kernel)
  have hkept := hall _ spec [] errors' (integersFit_oneUnit (by decide) (by decide)) h
  have hzero : (SystemSpec.parse (oneUnit (2 ^ 32)) []).1.any
      (fun spec => spec.units.any fun su => su.downSamplingFactor == 0) = true := by decide +kernel
  rw [h] at hzero
  obtain ⟨su, hsu, hfactor⟩ := List.any_eq_true.mp hzero
  have hpos := hkept.factor_pos su hsu
  rw [beq_iff_eq.mp hfactor] at hpos
  exact absurd hpos (by decide)

end AxonVex
