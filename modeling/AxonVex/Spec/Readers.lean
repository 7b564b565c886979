import AxonVex.Spec.Contents
import AxonVex.Spec.Parse

/-!
# Spec/Readers — each field reader decides its schema

A field reader is clean exactly when the member it reads satisfies the schema of that member, and
then yields what the member says.  The parser of an object is readers in a row, so it decides the
schema of the object (`Decides.object`); the parser of an array decides the schema of its entries
(`decides_parseEntries`).
-/

namespace AxonVex

open Machinery Machinery.Reported Schema

section Fields

variable {obj : Json} {key path : String} {required : List String}

theorem member_required {S : Schema} (hkey : key ∈ required) :
    Member required obj (key, S) ↔ ∃ v, obj.find? key = some v ∧ S v := by
  constructor
  · rintro ⟨hsome, hS⟩
    obtain ⟨v, hv⟩ := Option.isSome_iff_exists.mp (hsome hkey)
    exact ⟨v, hv, hS v hv⟩
  · rintro ⟨v, hv, hS⟩
    refine ⟨fun _ => Option.isSome_iff_exists.mpr ⟨v, hv⟩, fun w hw => ?_⟩
    obtain rfl : v = w := Option.some.inj (hv.symm.trans hw)
    exact hS

theorem member_optional {S : Schema} (hkey : key ∉ required) :
    Member required obj (key, S) ↔ ∀ v, obj.find? key = some v → S v :=
  ⟨fun h => h.2, fun h => ⟨fun hmem => absurd hmem hkey, h⟩⟩

/-- **A reader of a required member.** -/
theorem decides_required {α : Type} {S : Schema} {R : α → Prop} {x : Parsed α}
    (hkey : key ∈ required) (hnone : obj.find? key = none → ¬ x.Clean)
    (hsome : ∀ v, obj.find? key = some v → x.Decides (S v) R) :
    x.Decides (Member required obj (key, S)) R := by
  rw [member_required hkey]
  cases hv : obj.find? key with
  | none => exact ⟨iff_of_false (hnone hv) (by simp), by simp⟩
  | some v => simpa using hsome v hv

/-- **A reader of an optional member.** -/
theorem decides_optional {α : Type} {S : Schema} {Is : Json → α → Prop} {fallback : α}
    {x : Parsed α} (hkey : key ∉ required) (hnone : obj.find? key = none → x = pure fallback)
    (hsome : ∀ v, obj.find? key = some v → x.Decides (S v) (Is v)) :
    x.Decides (Member required obj (key, S)) (Field obj key Is fallback) := by
  rw [member_optional hkey]
  cases hv : obj.find? key with
  | none =>
    rw [hnone hv]
    exact ⟨iff_of_true (clean_pure _) (by simp), fun _ => .inl ⟨hv, rfl⟩⟩
  | some v =>
    refine (hsome v hv).congr (by simp) fun a _ ha => .inr ⟨v, hv, ha⟩

theorem clean_checkUnknownKeys {allowed : List String} :
    (checkUnknownKeys obj allowed path).Clean ↔ ∀ m ∈ obj.members, m.1 ∈ allowed := by
  simp [checkUnknownKeys]

theorem decides_requiredString {missing invalid : String} (hkey : key ∈ required) :
    (requiredString obj key path missing invalid).Decides
      (Member required obj (key, string 1)) (TextField obj key) := by
  refine decides_required hkey (fun hv => by simp [requiredString, hv]) fun v hv => ?_
  simp only [requiredString, hv]
  split_ifs with h
  · simp only [Bool.and_eq_true, bne_iff_ne] at h
    obtain ⟨s, rfl⟩ := Json.isString_iff.mp h.1
    exact Decides.pure ⟨s, rfl, Nat.one_le_iff_ne_zero.mpr (mt String.length_eq_zero_iff.mp h.2)⟩ hv
  · refine Decides.of_not_clean clean_refuse ?_
    rintro ⟨s, rfl, hs⟩
    simp only [Json.isString, Json.getString, Bool.true_and, bne_iff_ne, ne_eq, not_not] at h
    subst h
    exact absurd hs (by decide)

theorem decides_plainString {missing : String} (hkey : key ∈ required) :
    (plainString obj key path missing).Decides
      (Member required obj (key, string 0)) (TextField obj key) := by
  refine decides_required hkey (fun hv => by simp [plainString, hv]) fun v hv => ?_
  simp only [plainString, hv]
  split_ifs with h
  · obtain ⟨s, rfl⟩ := Json.isString_iff.mp h
    exact Decides.pure ⟨s, rfl, Nat.zero_le _⟩ hv
  · refine Decides.of_not_clean clean_refuse ?_
    rintro ⟨s, rfl, -⟩
    exact h rfl

theorem decides_checkRef (hkey : key ∈ required) :
    (checkRef obj key path).Decides (Member required obj (key, portRef))
      (fun ref => ∃ text, ref = some text ∧ TextField obj key text) := by
  refine decides_required hkey (fun hv => by simp [checkRef, hv]) fun v hv => ?_
  simp only [checkRef, hv]
  split_ifs with hstring hvalid
  · refine Decides.of_not_clean clean_refuse ?_
    rintro ⟨a, b, -, -, rfl⟩
    simp [Json.isString] at hstring
  · refine Decides.of_not_clean clean_refuse ?_
    rintro ⟨a, b, ha, hb, rfl⟩
    simp only [Json.getString, Bool.not_eq_true'] at hvalid
    rw [isValidPortRef_iff.mpr ⟨a, b, ha, hb, rfl⟩] at hvalid
    exact absurd hvalid (by simp)
  · obtain ⟨s, rfl⟩ := Json.isString_iff.mp (by simpa using hstring)
    have hs : isValidPortRef s = true := by simpa [Json.getString] using hvalid
    obtain ⟨a, b, ha, hb, rfl⟩ := isValidPortRef_iff.mp hs
    exact Decides.pure ⟨a, b, ha, hb, rfl⟩ ⟨_, rfl, hv⟩

/-- An integer that is at least `lower`, read as an `int64_t`. -/
theorem integer_iff {v : Json} (hv : v.Stored) {lower : ℤ} :
    (v.isNumberInteger && lower ≤ v.getInt64) = true ↔ integer lower v := by
  cases v with
  | integer z => simp [integer, Json.asInteger, Json.isNumberInteger, hv.getInt64]
  | float q =>
    refine iff_of_false (by simp [Json.isNumberInteger]) ?_
    rintro ⟨z, hz, -⟩
    simpa using (Json.asInteger_eq_some hv).mp hz
  | _ => simp [integer, Json.asInteger, Json.isNumberInteger]

theorem decides_integerField {α : Type} {lower : ℤ} {requirement : String} {convert : ℤ → α}
    {fallback : α} {Is : Json → α → Prop} (hobj : obj.Stored) (hkey : key ∉ required)
    (hIs : ∀ v z, v.asInteger = some z → lower ≤ z → Is v (convert z)) :
    (integerField obj key path lower requirement convert fallback).Decides
      (Member required obj (key, integer lower)) (Field obj key Is fallback) := by
  refine decides_optional hkey (fun hv => by simp [integerField, hv]) fun v hv => ?_
  have hstored : v.Stored := hobj.find? hv
  simp only [integerField, hv]
  split_ifs with h
  · have hint := (integer_iff hstored).mp h
    obtain ⟨z, hz, hlower⟩ := hint
    obtain rfl := (Json.asInteger_eq_some hstored).mp hz
    rw [hstored.getInt64]
    exact Decides.pure ⟨z, hz, hlower⟩ (hIs _ z hz hlower)
  · exact Decides.of_not_clean clean_refuse fun hint => h ((integer_iff hstored).mpr hint)

/-- A positive integer. -/
theorem decides_positiveField {α : Type} {requirement : String} {convert : ℤ → α} {fallback : α}
    {Is : Json → α → Prop} (hobj : obj.Stored) (hkey : key ∉ required)
    (hIs : ∀ v z, v.asInteger = some z → 1 ≤ z → Is v (convert z)) :
    (integerField obj key path 1 requirement convert fallback).Decides
      (Member required obj (key, integerAbove 0)) (Field obj key Is fallback) :=
  decides_integerField hobj hkey hIs

theorem decides_booleanField {fallback : Bool} (hkey : key ∉ required) :
    (booleanField obj key path fallback).Decides (Member required obj (key, boolean))
      (Field obj key IsBoolean fallback) := by
  refine decides_optional hkey (fun hv => by simp [booleanField, hv]) fun v hv => ?_
  simp only [booleanField, hv]
  cases v with
  | boolean b => exact Decides.pure ⟨b, rfl⟩ rfl
  | _ => exact Decides.of_not_clean clean_refuse (by simp [boolean])

/-- A decoder that looks a name up in a table of enumerators. -/
theorem decides_enumField {α : Type} {decode : String → Option α} {name : α → String}
    {fallback : α} (hkey : key ∉ required) (table : List (String × α))
    (hdecode : ∀ s, decode s = table.lookup s) (htable : ∀ e ∈ table, name e.2 = e.1) :
    (enumField obj key path decode fallback).Decides
      (Member required obj (key, enum (table.map Prod.fst)))
      (Field obj key (IsNamed name) fallback) := by
  have hname (s : String) (a : α) (h : decode s = some a) : s ∈ table.map Prod.fst ∧ name a = s := by
    rw [hdecode] at h
    obtain ⟨before, after, rfl, -⟩ := List.lookup_eq_some_iff.mp h
    exact ⟨List.mem_map.mpr ⟨(s, a), by simp, rfl⟩, htable (s, a) (by simp)⟩
  refine decides_optional hkey (fun hv => by simp [enumField, hv]) fun v hv => ?_
  simp only [enumField, hv]
  cases v with
  | string s =>
    cases hs : decode s with
    | none =>
      refine Decides.of_not_clean (by simp [Json.isString, Json.getString, hs]) ?_
      rintro ⟨t, ht, heq⟩
      obtain rfl : s = t := Json.string.inj heq
      rw [hdecode, List.lookup_eq_none_iff] at hs
      obtain ⟨e, he, rfl⟩ := List.mem_map.mp ht
      simpa using hs e he
    | some a =>
      simp only [Json.isString, Bool.not_true, Bool.false_eq_true, if_false, Json.getString, hs]
      exact Decides.pure ⟨s, (hname s a hs).1, rfl⟩ (congrArg Json.string (hname s a hs).2.symm)
  | _ => exact Decides.of_not_clean (by simp [Json.isString]) (by simp [enum])

theorem decides_objectField (hkey : key ∉ required) :
    (objectField obj key path).Decides (Member required obj (key, anyObject))
      (Field obj key Eq .emptyObject) := by
  refine decides_optional hkey (fun hv => by simp [objectField, hv]) fun v hv => ?_
  simp only [objectField, hv]
  cases v with
  | object members => exact Decides.pure ⟨members, rfl⟩ rfl
  | _ => exact Decides.of_not_clean clean_refuse (by simp [anyObject])

end Fields

/-! ## Objects and arrays -/

/-- **A parser of an object** checks the keys and reads the members one after the other. -/
theorem Decides.object {α : Type} {obj : Json} {path : String} {required allowed : List String}
    {properties : List (String × Schema)} {R : α → Prop} {x : Parsed α} (S : Schema)
    (hS : S = Schema.object required properties) (hobj : obj.Stored) (hisObject : obj.isObject = true)
    (hallowed : properties.map Prod.fst = allowed) (hkeys : allowed.Nodup)
    (hrequired : ∀ key ∈ required, key ∈ allowed)
    (hx : x.Decides (Members required obj properties) R) :
    (checkUnknownKeys obj allowed path >>= fun _ => x).Decides (S obj) R := by
  subst hallowed
  refine (Decides.check clean_checkUnknownKeys hx).congr ?_ fun _ _ h => h
  rw [hS, object_iff hobj hkeys hrequired]
  exact ⟨fun h => ⟨hisObject, h⟩, fun h => h.2⟩

/-- **The entries of an array**, each an object that `parseEntry` decides. -/
theorem decides_parseEntries {α : Type} {S : Schema} {Is : Json → α → Prop} {path kind : String}
    {parseEntry : String → Json → Parsed (List α)} (hS : ∀ v, S v → v.isObject = true)
    (hentry : ∀ base (v : Json), v.Stored → v.isObject = true →
      (parseEntry base v).Decides (S v) fun as => ∃ a, as = [a] ∧ Is v a) {entries : List Json}
    (hstored : ∀ v ∈ entries, v.Stored) :
    (parseEntries entries path kind parseEntry).Decides (∀ v ∈ entries, S v)
      fun as => List.Forall₂ Is entries as := by
  -- the entries before are parsed, and stay in front
  have key (indexed : List (Json × ℕ)) (hstored : ∀ e ∈ indexed, e.1.Stored) (parsed : List α) :
      (indexed.foldlM (fun parsed entry =>
        if !entry.1.isObject then
          refuse parsed (entryPath path entry.2) .invalidType (kind ++ " entry must be an object")
        else do
          let more ← parseEntry (entryPath path entry.2) entry.1
          pure (parsed ++ more)) parsed : Parsed (List α)).Decides (∀ e ∈ indexed, S e.1)
        fun as => ∃ rest, as = parsed ++ rest ∧ List.Forall₂ (fun e a => Is e.1 a) indexed rest := by
    induction indexed generalizing parsed with
    | nil => exact Decides.pure (by simp) ⟨[], (List.append_nil _).symm, .nil⟩
    | cons e indexed ih =>
      rw [List.foldlM_cons, List.forall_mem_cons]
      refine Decides.bind (R := fun as => ∃ a, as = parsed ++ [a] ∧ Is e.1 a) ?_ ?_
      · split_ifs with hobj
        · refine Decides.of_not_clean clean_refuse fun h => ?_
          simp [hS _ h] at hobj
        · have hisObject : e.1.isObject = true := by simpa using hobj
          refine (Decides.bind (hentry _ e.1 (hstored e List.mem_cons_self) hisObject)
            fun as has => Decides.pure trivial ?_).congr (iff_of_eq (and_true _)) fun _ _ h => h
          obtain ⟨a, rfl, ha⟩ := has
          exact ⟨a, rfl, ha⟩
      · rintro _ ⟨a, rfl, ha⟩
        refine (ih (fun e he => hstored e (List.mem_cons_of_mem _ he)) (parsed ++ [a])).congr Iff.rfl ?_
        rintro _ _ ⟨rest, rfl, hrest⟩
        exact ⟨a :: rest, by simp, .cons ha hrest⟩
  refine (key entries.zipIdx ?_ []).congr (forall_zipIdx S) ?_
  · exact (forall_zipIdx Json.Stored).mpr hstored
  · rintro _ _ ⟨rest, rfl, hrest⟩
    have hfst := (List.forall₂_map_left_iff (f := Prod.fst) (R := Is)).mpr hrest
    rwa [List.zipIdx_map_fst] at hfst

theorem isArray_of_array {n : ℕ} {S : Schema} {v : Json} (h : array n S v) : v.isArray = true := by
  obtain ⟨elements, rfl, -⟩ := h
  rfl

/-- An array member, which may be empty. -/
theorem decides_array {α : Type} {S : Schema} {Is : Json → α → Prop} {path kind : String}
    {parseEntry : String → Json → Parsed (List α)} {v : Json} (hS : ∀ v, S v → v.isObject = true)
    (hentry : ∀ base (v : Json), v.Stored → v.isObject = true →
      (parseEntry base v).Decides (S v) fun as => ∃ a, as = [a] ∧ Is v a)
    (hv : v.Stored) (harray : v.isArray = true) :
    (parseEntries v.elements path kind parseEntry).Decides (array 0 S v) (IsArray Is v) := by
  cases v with
  | array elements =>
    refine (decides_parseEntries hS hentry hv.elements).congr ?_ fun as _ h => ⟨elements, rfl, h⟩
    constructor
    · exact fun h => ⟨elements, rfl, Nat.zero_le _, h⟩
    · rintro ⟨elements', heq, -, h⟩
      obtain rfl := Json.array.inj heq
      exact h
  | _ => exact absurd harray (by simp [Json.isArray])

/-- A field whose value goes into one place of a larger value. -/
theorem Field.into {α β : Type} {obj : Json} {key : String} {Is : Json → β → Prop} {a₀ a : α}
    {b₀ : β} (f : β → α) (h : Field obj key (fun v a => ∃ b, a = f b ∧ Is v b) a₀ a)
    (h₀ : a₀ = f b₀) : ∃ b, a = f b ∧ Field obj key Is b₀ b := by
  rcases h with ⟨hnone, rfl⟩ | ⟨v, hv, b, hb, hIs⟩
  · exact ⟨b₀, h₀, .inl ⟨hnone, rfl⟩⟩
  · exact ⟨b, hb, .inr ⟨v, hv, hIs⟩⟩

theorem isObject_of_object {required : List String} {properties : List (String × Schema)} {v : Json}
    (h : Schema.object required properties v) : v.isObject = true := by
  obtain ⟨members, rfl, -⟩ := h
  rfl

end AxonVex
