import AxonVex.Spec.Conforms

/-!
# Spec/Schematic — documents and what `parse` makes of them

    doc satisfies the schema, names differ ⟷ `parse` yields a spec ⟷ no error is appended

The spec then holds what the document says, as long as the numbers that are stored as `int` fit.
-/

namespace AxonVex

open Machinery Machinery.Reported

/-! ## Numbers stored as `int` -/

/-- The range of `int`. -/
def FitsInt (z : ℤ) : Prop := -2 ^ 31 ≤ z ∧ z < 2 ^ 31

theorem wrapSigned_eq_self {z : ℤ} : wrapSigned 32 z = z ↔ FitsInt z := by
  unfold wrapSigned FitsInt
  constructor
  · intro h
    have hlow := Int.le_bmod (x := z) (m := 2 ^ 32) (by decide)
    have hhigh := Int.bmod_lt (x := z) (m := 2 ^ 32) (by decide)
    omega
  · rintro ⟨hlow, hhigh⟩
    exact Int.bmod_eq_of_le (by omega) (by omega)

/-- The member under `key` fits in an `int`, if it is a number. -/
def MemberFits (obj : Json) (key : String) : Prop :=
  ∀ v z, obj.find? key = some v → v.asInteger = some z → FitsInt z

/-- **What is stored is what is written** when it fits. -/
theorem converted_iff {obj : Json} {key : String} {fallback n : ℤ}
    (h : Field obj key (IsConverted (wrapSigned 32)) fallback n) :
    Field obj key (IsConverted id) fallback n ↔ MemberFits obj key := by
  rcases h with ⟨hnone, rfl⟩ | ⟨v, hv, z, hz, rfl⟩
  · exact iff_of_true (.inl ⟨hnone, rfl⟩) fun v z hv => absurd (hnone.symm.trans hv) (by simp)
  · constructor
    · rintro (⟨hnone, -⟩ | ⟨v', hv', z', hz', heq⟩) w x hw hx
      · exact absurd (hnone.symm.trans hv) (by simp)
      · obtain rfl := Option.some.inj (hv.symm.trans hv')
        obtain rfl := Option.some.inj (hz.symm.trans hz')
        obtain rfl := Option.some.inj (hv.symm.trans hw)
        obtain rfl := Option.some.inj (hz.symm.trans hx)
        exact wrapSigned_eq_self.mp heq
    · intro hfits
      exact .inr ⟨v, hv, z, hz, wrapSigned_eq_self.mpr (hfits v z hv hz)⟩

/-- The numbers of a document that are stored as `int` fit. -/
structure IntsFit (doc : Json) : Prop where
  downSamplingFactor : ∀ units, doc.find? "units" = some (.array units) →
    ∀ u ∈ units, MemberFits u "downSamplingFactor"
  evaluationPeriodMs : ∀ s, doc.find? "safety" = some s → MemberFits s "evaluationPeriodMs"

theorem UnitContents.fits_iff {u : Json} {su : SpecUnit} (h : UnitContents (wrapSigned 32) u su) :
    UnitContents id u su ↔ MemberFits u "downSamplingFactor" := by
  rw [← converted_iff h.downSamplingFactor]
  exact ⟨fun h' => h'.downSamplingFactor, fun h' => ⟨h.name, h.type, h.params, h.timing, h'⟩⟩

/-- What `safety` says, when there is one. -/
theorem Field.of_some {α : Type} {obj v : Json} {key : String} {Is : Json → α → Prop}
    {fallback a : α} (h : Field obj key Is fallback a) (hv : obj.find? key = some v) : Is v a := by
  rcases h with ⟨hnone, -⟩ | ⟨w, hw, hIs⟩
  · exact absurd (hnone.symm.trans hv) (by simp)
  · obtain rfl := Option.some.inj (hv.symm.trans hw)
    exact hIs

/-- **The stored contents are the contents** exactly when the numbers fit. -/
theorem Contents.id_iff {doc : Json} {spec : SystemSpec} (h : Contents (wrapSigned 32) doc spec) :
    Contents id doc spec ↔ IntsFit doc := by
  obtain ⟨v, hv, units, rfl, hunits⟩ := h.units
  have hfits_iff := forall₂_iff_forall hunits fun _ _ hu => hu.fits_iff
  constructor
  · intro h'
    refine ⟨fun us hus => ?_, fun s hs => ?_⟩
    · obtain rfl := Json.array.inj (Option.some.inj (hv.symm.trans hus))
      obtain ⟨v', hv', units', rfl, hunits'⟩ := h'.units
      obtain rfl := Json.array.inj (Option.some.inj (hv.symm.trans hv'))
      exact hfits_iff.mp hunits'
    · exact (converted_iff (h.safety.of_some hs).evaluationPeriodMs).mp
        (h'.safety.of_some hs).evaluationPeriodMs
  · intro hfits
    refine { h with
      units := ⟨_, hv, units, rfl, hfits_iff.mpr (hfits.downSamplingFactor units hv)⟩
      safety := ?_ }
    rcases h.safety with hnone | ⟨s, hs, hsafety⟩
    · exact .inl hnone
    · exact .inr ⟨s, hs, hsafety.present,
        (converted_iff hsafety.evaluationPeriodMs).mpr (hfits.evaluationPeriodMs s hs),
        hsafety.policies⟩

/-! ## The result of `parse` -/

/-- **`parse` does what the schema says** with a document: it accepts exactly the documents that
satisfy the schema and name their units apart, appends errors exactly to a refusal, and an accepted
document is returned unchanged. -/
structure ParsesBySchema (doc : Json) : Prop where
  accepts : ∀ errors, (SystemSpec.parse doc errors).1.isSome = true ↔
    axvSchema doc ∧ DistinctNames doc
  reports : ∀ errors, ∃ new, (SystemSpec.parse doc errors).2 = errors ++ new ∧
    (new ≠ [] ↔ (SystemSpec.parse doc errors).1 = none)
  contents : ∀ errors spec, (SystemSpec.parse doc errors).1 = some spec → Contents id doc spec

theorem parse_accepts {doc : Json} (hdoc : doc.Stored) (errors : List SpecError) :
    (SystemSpec.parse doc errors).1.isSome = true ↔ axvSchema doc ∧ DistinctNames doc := by
  unfold SystemSpec.parse
  split_ifs with hobj hclean
  · refine iff_of_false (by simp) fun h => ?_
    simp [isObject_of_object h.1] at hobj
  · exact iff_of_true rfl
      ((decides_parseDocument hdoc (by simpa using hobj)).clean.mp (List.isEmpty_iff.mp hclean))
  · refine iff_of_false (by simp) fun h => hclean (List.isEmpty_iff.mpr ?_)
    exact (decides_parseDocument hdoc (by simpa using hobj)).clean.mpr h

theorem parse_reports (doc : Json) (errors : List SpecError) :
    ∃ new, (SystemSpec.parse doc errors).2 = errors ++ new ∧
      (new ≠ [] ↔ (SystemSpec.parse doc errors).1 = none) := by
  unfold SystemSpec.parse
  split_ifs with hobj hclean
  · exact ⟨_, rfl, by simp⟩
  · exact ⟨_, rfl, by simpa using hclean⟩
  · exact ⟨_, rfl, by simpa using hclean⟩

/-- What is stored of an accepted document. -/
theorem parse_stores {doc : Json} (hdoc : doc.Stored) {errors : List SpecError} {spec : SystemSpec}
    (h : (SystemSpec.parse doc errors).1 = some spec) : Contents (wrapSigned 32) doc spec := by
  obtain ⟨hclean, rfl⟩ := parse_eq_some (Prod.ext h rfl)
  have hobj : doc.isObject = true :=
    isObject_of_object ((parse_accepts hdoc errors).mp (by rw [h]; rfl)).1
  have hdecides := decides_parseDocument hdoc hobj
  exact hdecides.value (hdecides.clean.mp hclean)

/-- **`parse` follows the schema exactly on the documents it refuses and on those whose `int`
members fit.** -/
theorem parsesBySchema_iff {doc : Json} (hdoc : doc.Stored) :
    ParsesBySchema doc ↔ (axvSchema doc ∧ DistinctNames doc → IntsFit doc) := by
  constructor
  · intro h haccepted
    obtain ⟨spec, hspec⟩ := Option.isSome_iff_exists.mp ((parse_accepts hdoc []).mpr haccepted)
    exact (parse_stores hdoc hspec).id_iff.mp (h.contents [] spec hspec)
  · intro hfits
    refine ⟨parse_accepts hdoc, parse_reports doc, fun errors spec hspec => ?_⟩
    have haccepted := (parse_accepts hdoc errors).mp (by rw [hspec]; rfl)
    exact (parse_stores hdoc hspec).id_iff.mpr (hfits haccepted)

/-! ## A down-sampled camera -/

/-- A camera that runs every so many ticks. -/
def sampledCamera (factor : ℤ) : Json :=
  .object [("specVersion", .string "1.0"), ("system", .object [("name", .string "rig")]),
    ("units", .array [.object [("downSamplingFactor", .integer factor), ("name", .string "eye"),
      ("type", .string "vision.Camera")]])]

theorem stored_sampledCamera {factor : ℤ} (hlow : -2 ^ 63 ≤ factor) (hhigh : factor < 2 ^ 63) :
    (sampledCamera factor).Stored := by
  have hunit : (Json.object [("downSamplingFactor", .integer factor), ("name", .string "eye"),
      ("type", .string "vision.Camera")]).Stored :=
    .object (by simp) (by
      simp only [List.forall_mem_cons]
      exact ⟨.integer hlow hhigh, .string _, .string _, fun _ h => absurd h List.not_mem_nil⟩)
  have hsystem : (Json.object [("name", .string "rig")]).Stored :=
    .object (by decide) (by
      simp only [List.forall_mem_cons]
      exact ⟨.string _, fun _ h => absurd h List.not_mem_nil⟩)
  refine .object (by simp) ?_
  simp only [List.forall_mem_cons]
  refine ⟨.string _, hsystem, .array ?_, fun _ h => absurd h List.not_mem_nil⟩
  simp only [List.forall_mem_cons]
  exact ⟨hunit, fun _ h => absurd h List.not_mem_nil⟩

/-- Every fourth tick is kept. -/
theorem contents_sampledCamera : ∃ spec,
    (SystemSpec.parse (sampledCamera 4) []).1 = some spec ∧ Contents id (sampledCamera 4) spec := by
  have hparsed : (SystemSpec.parse (sampledCamera 4) []).1.isSome = true := by decide +kernel
  obtain ⟨spec, hspec⟩ := Option.isSome_iff_exists.mp hparsed
  refine ⟨spec, hspec, ((parsesBySchema_iff (stored_sampledCamera (by decide) (by decide))).mpr
    fun _ => ⟨fun units hunits u hu => ?_, fun s hs => ?_⟩).contents [] spec hspec⟩
  · obtain rfl := Json.array.inj (Option.some.inj hunits)
    obtain rfl := List.mem_singleton.mp hu
    intro v z hv hz
    obtain rfl := Option.some.inj hv
    obtain rfl := Option.some.inj hz
    exact ⟨by decide, by decide⟩
  · have hnone : (sampledCamera 4).find? "safety" = none := rfl
    exact absurd (hnone.symm.trans hs) (by simp)

/-- **A factor of `2 ^ 32` is stored as 0.** -/
theorem factor_wraps : ¬ ∀ doc : Json, doc.Stored → ParsesBySchema doc := by
  intro h
  have hparsed : (SystemSpec.parse (sampledCamera (2 ^ 32)) []).1.map
      (fun spec => spec.units.map (·.downSamplingFactor)) = some [0] := by
    decide +kernel
  obtain ⟨spec, hspec, hfactors⟩ := Option.map_eq_some_iff.mp hparsed
  have hcontents := (h _ (stored_sampledCamera (by decide) (by decide))).contents [] spec hspec
  obtain ⟨_, hv, units, rfl, hunits⟩ := hcontents.units
  obtain rfl := Json.array.inj (Option.some.inj hv)
  cases hsus : spec.units with
  | nil => simp [hsus] at hfactors
  | cons su sus =>
    rw [hsus] at hunits hfactors
    obtain ⟨hsu, -⟩ := List.forall₂_cons.mp hunits
    rcases hsu.downSamplingFactor with ⟨hnone, -⟩ | ⟨v, hv, z, hz, heq⟩
    · exact absurd hnone (by simp [Json.find?, Json.members])
    · obtain rfl := Option.some.inj hv
      obtain rfl := Option.some.inj hz
      simp [heq] at hfactors

end AxonVex
