import AxonVex.Machinery.Members
import AxonVex.Machinery.Rounding
import AxonVex.Spec.Metadata

/-!
# Spec/Declared — the parameters that pass are the declared ones

`validateParams` looks at every key and at every parameter in turn; together the two passes find
nothing exactly if the parameters are as they are declared (`validates_iff`).  Numbers are compared
as doubles: of two integers the nearest doubles, which are in the same order, but may be the same
where the integers are not (`Separated`).
-/

namespace AxonVex

open Machinery

/-! ## The doubles nearest to integers -/

theorem nearestDouble_eq (z : ℤ) :
    nearestDouble z = z.sign * (nearestMantissa 53 z.natAbs : ℕ) := rfl

/-- An integer up to `2⁵³` is a double. -/
theorem nearestDouble_of_le {z : ℤ} (h : z.natAbs ≤ 2 ^ 53) : nearestDouble z = z := by
  rw [nearestDouble_eq, nearestMantissa_of_le (by decide) h, Int.sign_mul_natAbs]

theorem nearestDouble_natCast (n : ℕ) : nearestDouble n = nearestMantissa 53 n := by
  rcases Nat.eq_zero_or_pos n with rfl | hpos
  · rfl
  · rw [nearestDouble_eq, Int.sign_eq_one_of_pos (by omega), Int.one_mul, Int.natAbs_natCast]

theorem nearestDouble_neg (z : ℤ) : nearestDouble (-z) = -nearestDouble z := by
  rw [nearestDouble_eq, nearestDouble_eq, Int.sign_neg, Int.natAbs_neg, Int.neg_mul]

/-- **The nearest doubles are in the order of the integers.** -/
theorem nearestDouble_mono {a b : ℤ} (h : a ≤ b) : nearestDouble a ≤ nearestDouble b := by
  have hnat (m n : ℕ) (hmn : m ≤ n) : nearestDouble m ≤ nearestDouble n := by
    have hmono := nearestMantissa_mono (by decide : 0 < 53) hmn
    rw [nearestDouble_natCast, nearestDouble_natCast]
    omega
  have hnonneg (n : ℕ) : 0 ≤ nearestDouble n := by
    rw [nearestDouble_natCast]
    omega
  obtain ⟨m, rfl | rfl⟩ := a.eq_nat_or_neg
  · obtain ⟨n, rfl | rfl⟩ := b.eq_nat_or_neg
    · exact hnat m n (by omega)
    · obtain ⟨rfl, rfl⟩ : m = 0 ∧ n = 0 := by omega
      exact Int.le_refl _
  · obtain ⟨n, rfl | rfl⟩ := b.eq_nat_or_neg
    · have hm := hnonneg m
      have hn := hnonneg n
      rw [nearestDouble_neg]
      omega
    · have hmn := hnat n m (by omega)
      rw [nearestDouble_neg, nearestDouble_neg]
      omega

/-- Integers that are not taken for the same double are compared exactly. -/
theorem nearestDouble_le_iff {a b : ℤ} (h : b < a → nearestDouble b ≠ nearestDouble a) :
    nearestDouble a ≤ nearestDouble b ↔ a ≤ b := by
  refine ⟨fun hle => ?_, nearestDouble_mono⟩
  by_contra hnot
  have hlt : b < a := by omega
  have hmono := nearestDouble_mono hlt.le
  exact h hlt (by omega)

/-! ## What is declared -/

/-- A value of the type. -/
inductive HasType : ParamType → Json → Prop
  | bool (b : Bool) : HasType .bool (.boolean b)
  | int (z : ℤ) : HasType .int (.integer z)
  | double (v : ℚ) : HasType .double (.float v)
  /-- an integer is a double, too -/
  | integer (z : ℤ) : HasType .double (.integer z)
  | string (s : String) : HasType .string (.string s)
  | enum (s : String) : HasType .enum (.string s)
  | object (members : List (String × Json)) : HasType .object (.object members)

theorem jsonTypeMatches_iff {type : ParamType} {value : Json} :
    jsonTypeMatches type value = true ↔ HasType type value := by
  constructor
  · intro h
    cases type <;> cases value <;> first | exact absurd h Bool.noConfusion | constructor
  · rintro (_ | _ | _ | _ | _ | _ | _) <;> rfl

/-- **The parameters are as declared**: each key names a parameter, none that is required is missing,
and the values are of their types, in the list of an enumeration that has one, and within the integer
bounds of an integer. -/
structure Declared (descriptor : UnitTypeDescriptor) (params : Json) : Prop where
  object : params.isNull = true ∨ params.isObject = true
  known : ∀ m ∈ params.members, ∃ desc ∈ descriptor.parameters, desc.name = m.1
  required : ∀ desc ∈ descriptor.parameters, desc.isRequired = true →
    ∃ value, params.find? desc.name = some value
  typed : ∀ desc ∈ descriptor.parameters, ∀ value, params.find? desc.name = some value →
    HasType desc.type value
  listed : ∀ desc ∈ descriptor.parameters, desc.type = .enum →
    ∀ value, params.find? desc.name = some value →
      ∀ allowed, desc.constraints.find? "values" = some (.array allowed) → value ∈ allowed
  within : ∀ desc ∈ descriptor.parameters, desc.type = .int →
    ∀ z, params.find? desc.name = some (.integer z) →
      (∀ bound, desc.constraints.find? "min" = some (.integer bound) → bound ≤ z) ∧
        ∀ bound, desc.constraints.find? "max" = some (.integer bound) → z ≤ bound

/-- A bound that is compared as a double: one of a double, and one of an integer that is not an
integer itself. -/
def ParamDescriptor.boundsDouble (desc : ParamDescriptor) (bound : Json) : Prop :=
  bound.isNumber = true ∧
    (desc.type = .double ∨ desc.type = .int ∧ bound.isNumberInteger = false)

/-- The other bounds are kept, as doubles. -/
def WithinDoubles (descriptor : UnitTypeDescriptor) (params : Json) : Prop :=
  ∀ desc ∈ descriptor.parameters, ∀ value, params.find? desc.name = some value →
    ∀ bound, desc.boundsDouble bound →
      (desc.constraints.find? "min" = some bound → bound.getDouble ≤ value.getDouble) ∧
        (desc.constraints.find? "max" = some bound → value.getDouble ≤ bound.getDouble)

/-- **No integer is taken for a bound**: one that is beyond an integer bound has another nearest double
than the bound. -/
def Separated (descriptor : UnitTypeDescriptor) (params : Json) : Prop :=
  ∀ desc ∈ descriptor.parameters, desc.type = .int →
    ∀ z, params.find? desc.name = some (.integer z) →
      (∀ bound, desc.constraints.find? "min" = some (.integer bound) → z < bound →
          nearestDouble z ≠ nearestDouble bound) ∧
        ∀ bound, desc.constraints.find? "max" = some (.integer bound) → bound < z →
          nearestDouble bound ≠ nearestDouble z

/-! ## What passes -/

section Passes

variable {dump : Json → String} {descriptor : UnitTypeDescriptor} {desc : ParamDescriptor}
  {params value : Json}

/-- A number is within the bounds, as a double. -/
def ParamDescriptor.KeepsBounds (desc : ParamDescriptor) (value : Json) : Prop :=
  ∀ bound, bound.isNumber = true →
    (desc.constraints.find? "min" = some bound → bound.getDouble ≤ value.getDouble) ∧
      (desc.constraints.find? "max" = some bound → value.getDouble ≤ bound.getDouble)

/-- The search for a bound that is broken. -/
theorem filter_bound_eq_none_iff (found : Option Json) (broken : Json → Bool) :
    (found.filter fun bound => bound.isNumber && broken bound) = none ↔
      ∀ bound, bound.isNumber = true → found = some bound → broken bound = false := by
  rw [Option.filter_eq_none_iff]
  constructor
  · intro h bound hnumber hbound
    have hkept := h bound hbound
    rw [hnumber, Bool.true_and] at hkept
    exact Bool.eq_false_iff.mpr hkept
  · intro h bound hbound hboth
    obtain ⟨hnumber, hbroken⟩ := (Bool.and_eq_true _ _).mp hboth
    exact absurd (h bound hnumber hbound) (by rw [hbroken]; exact Bool.noConfusion)

theorem bounds_eq_none_iff (hnumber : value.isNumber = true) :
    constraintViolation?.bounds dump desc value = none ↔ desc.KeepsBounds value := by
  have hlow := filter_bound_eq_none_iff (desc.constraints.find? "min")
    fun bound => value.getDouble < bound.getDouble
  have hhigh := filter_bound_eq_none_iff (desc.constraints.find? "max")
    fun bound => bound.getDouble < value.getDouble
  simp only [decide_eq_false_iff_not, Rat.not_lt] at hlow hhigh
  have hsplit : desc.KeepsBounds value ↔
      (∀ bound, bound.isNumber = true → desc.constraints.find? "min" = some bound →
          bound.getDouble ≤ value.getDouble) ∧
        ∀ bound, bound.isNumber = true → desc.constraints.find? "max" = some bound →
          value.getDouble ≤ bound.getDouble :=
    ⟨fun h => ⟨fun bound hb => (h bound hb).1, fun bound hb => (h bound hb).2⟩,
      fun h bound hb => ⟨h.1 bound hb, h.2 bound hb⟩⟩
  rw [constraintViolation?.bounds, hnumber, hsplit, ← hlow, ← hhigh]
  simp only [Bool.not_true, Bool.false_eq_true, if_false]
  split
  · next bound hbound => rw [hbound]; simp
  · next hnone =>
    rw [hnone]
    split
    · next bound hbound => rw [hbound]; simp
    · next hnone => rw [hnone]; simp

/-- A constraint holds where there are none. -/
theorem find?_of_not_isObject {constraints : Json} {key : String}
    (h : constraints.isObject = false) : constraints.find? key = none := by
  cases constraints with
  | object members => exact absurd h Bool.noConfusion
  | _ => rfl

theorem keepsBounds_of_not_isObject (h : desc.constraints.isObject = false) :
    desc.KeepsBounds value := by
  intro bound _
  rw [find?_of_not_isObject h, find?_of_not_isObject h]
  exact ⟨fun hb => absurd hb (by simp), fun hb => absurd hb (by simp)⟩

/-- What the constraints say about a value of the type. -/
def ParamDescriptor.Allows (desc : ParamDescriptor) (value : Json) : Prop :=
  match desc.type with
  | .enum => ∀ allowed, desc.constraints.find? "values" = some (.array allowed) → value ∈ allowed
  | .int => desc.KeepsBounds value
  | .double => desc.KeepsBounds value
  | _ => True

theorem isTheString_iff {s : String} {v : Json} : v.isTheString s = true ↔ v = .string s := by
  cases v with
  | string t => rw [Json.isTheString, beq_iff_eq, Json.string.injEq]
  | _ => exact iff_of_false Bool.noConfusion (by simp)

/-- The search of an enumeration's list. -/
theorem any_isTheString_iff {allowed : List Json} {s : String} :
    allowed.any (·.isTheString s) = true ↔ Json.string s ∈ allowed := by
  rw [List.any_eq_true]
  constructor
  · rintro ⟨v, hv, hsame⟩
    exact isTheString_iff.mp hsame ▸ hv
  · intro hmem
    exact ⟨_, hmem, isTheString_iff.mpr rfl⟩

/-- **A value of its type violates no constraint exactly if all of them hold.** -/
theorem constraintViolation?_eq_none_iff (dump : Json → String) (htype : HasType desc.type value) :
    constraintViolation? dump desc value = none ↔ desc.Allows value := by
  rw [constraintViolation?, ParamDescriptor.Allows]
  cases hobject : desc.constraints.isObject with
  | false =>
    refine iff_of_true rfl ?_
    cases desc.type with
    | int => exact keepsBounds_of_not_isObject hobject
    | double => exact keepsBounds_of_not_isObject hobject
    | enum =>
      intro allowed hallowed
      rw [find?_of_not_isObject hobject] at hallowed
      cases hallowed
    | _ => trivial
  | true =>
    simp only [Bool.not_true, Bool.false_eq_true, if_false]
    generalize desc.type = type at htype
    cases htype with
    | bool b => exact iff_of_true rfl trivial
    | string s => exact iff_of_true rfl trivial
    | object members => exact iff_of_true rfl trivial
    | int z => exact bounds_eq_none_iff rfl
    | double v => exact bounds_eq_none_iff rfl
    | integer z => exact bounds_eq_none_iff rfl
    | enum s =>
      cases hvalues : desc.constraints.find? "values" with
      | none => exact iff_of_true rfl fun allowed hallowed => by cases hallowed
      | some values =>
        cases values with
        | array allowed =>
          simp only [Json.getString, Option.some.injEq, Json.array.injEq, forall_eq']
          rw [← any_isTheString_iff]
          simp
        | _ => exact iff_of_true rfl fun allowed hallowed => by cases hallowed

/-- A parameter has no issue. -/
structure ParamDescriptor.Passes (desc : ParamDescriptor) (obj : Json) : Prop where
  required : desc.isRequired = true → ∃ value, obj.find? desc.name = some value
  typed : ∀ value, obj.find? desc.name = some value → HasType desc.type value
  allowed : ∀ value, obj.find? desc.name = some value → desc.Allows value

theorem checkParam_eq_none_iff : checkParam dump params desc = none ↔ desc.Passes params := by
  rw [checkParam]
  cases hfound : params.find? desc.name with
  | none =>
    have hrequired : desc.Passes params ↔ desc.isRequired ≠ true := by
      constructor
      · intro h hrequired
        obtain ⟨value, hvalue⟩ := h.required hrequired
        rw [hfound] at hvalue
        cases hvalue
      · intro h
        have hnone (value : Json) : params.find? desc.name ≠ some value := by
          rw [hfound]
          exact (Option.some_ne_none value).symm
        exact ⟨fun hrequired => absurd hrequired h, fun value hv => absurd hv (hnone value),
          fun value hv => absurd hv (hnone value)⟩
    rw [hrequired]
    simp
  | some found =>
    have hvalue : desc.Passes params ↔ HasType desc.type found ∧ desc.Allows found := by
      constructor
      · exact fun h => ⟨h.typed found hfound, h.allowed found hfound⟩
      · rintro ⟨htype, hallows⟩
        refine ⟨fun _ => ⟨found, hfound⟩, fun value hv => ?_, fun value hv => ?_⟩
        · obtain rfl := Option.some.inj (hfound.symm.trans hv)
          exact htype
        · obtain rfl := Option.some.inj (hfound.symm.trans hv)
          exact hallows
    rw [hvalue, ← jsonTypeMatches_iff]
    cases hmatches : jsonTypeMatches desc.type found with
    | false => simp [hmatches]
    | true =>
      have hiff := constraintViolation?_eq_none_iff dump (jsonTypeMatches_iff.mp hmatches)
      simp [hmatches, hiff]

theorem ParamDescriptor.Passes.congr {obj : Json} (h : desc.Passes params)
    (hsame : obj.find? desc.name = params.find? desc.name) : desc.Passes obj where
  required hrequired := hsame ▸ h.required hrequired
  typed value hvalue := h.typed value (hsame ▸ hvalue)
  allowed value hvalue := h.allowed value (hsame ▸ hvalue)

/-- The two passes over an object find nothing. -/
theorem passes_eq_nil_iff (dump : Json → String) (descriptor : UnitTypeDescriptor) (obj : Json) :
    (obj.members.filterMap fun (key, _) =>
        if descriptor.parameters.any (·.name == key) then none
        else some (⟨key, .unknownKey, "unit type '" ++ descriptor.typeName ++
          "' has no parameter named '" ++ key ++ "'"⟩ : ParamValidationIssue)) ++
      descriptor.parameters.filterMap (checkParam dump obj) = [] ↔
      (∀ m ∈ obj.members, ∃ desc ∈ descriptor.parameters, desc.name = m.1) ∧
        ∀ desc ∈ descriptor.parameters, desc.Passes obj := by
  rw [List.append_eq_nil_iff]
  simp only [List.filterMap_eq_nil_iff, checkParam_eq_none_iff]
  simp

/-- **Nothing is found exactly if** the keys are known and every parameter passes. -/
theorem validateParams_eq_nil_iff : validateParams dump descriptor params = [] ↔
    (params.isNull = true ∨ params.isObject = true) ∧
      (∀ m ∈ params.members, ∃ desc ∈ descriptor.parameters, desc.name = m.1) ∧
        ∀ desc ∈ descriptor.parameters, desc.Passes params := by
  cases params with
  | null =>
    have hempty : validateParams dump descriptor .null = [] ↔ _ :=
      passes_eq_nil_iff dump descriptor .emptyObject
    rw [hempty]
    constructor
    · rintro ⟨hknown, hpasses⟩
      exact ⟨.inl rfl, hknown, fun desc hdesc => (hpasses desc hdesc).congr rfl⟩
    · rintro ⟨-, hknown, hpasses⟩
      exact ⟨hknown, fun desc hdesc => (hpasses desc hdesc).congr rfl⟩
  | object members =>
    have hobject : validateParams dump descriptor (.object members) = [] ↔ _ :=
      passes_eq_nil_iff dump descriptor (.object members)
    have hshape : (Json.object members).isNull = true ∨ (Json.object members).isObject = true :=
      .inr rfl
    rw [hobject, and_iff_right hshape]
  | _ => exact iff_of_false (by simp [validateParams, Json.isNull, Json.isObject]) fun h =>
      h.1.elim Bool.noConfusion Bool.noConfusion

/-- An integer that is not taken for its bounds keeps the integer ones exactly, and the others as
doubles. -/
theorem keepsBounds_integer_iff {z : ℤ} (hint : desc.type = .int)
    (hlow : ∀ bound, desc.constraints.find? "min" = some (.integer bound) → z < bound →
      nearestDouble z ≠ nearestDouble bound)
    (hhigh : ∀ bound, desc.constraints.find? "max" = some (.integer bound) → bound < z →
      nearestDouble bound ≠ nearestDouble z) :
    desc.KeepsBounds (.integer z) ↔
      ((∀ bound, desc.constraints.find? "min" = some (.integer bound) → bound ≤ z) ∧
        ∀ bound, desc.constraints.find? "max" = some (.integer bound) → z ≤ bound) ∧
      ∀ bound, desc.boundsDouble bound →
        (desc.constraints.find? "min" = some bound → bound.getDouble ≤ (Json.integer z).getDouble) ∧
        (desc.constraints.find? "max" = some bound →
          (Json.integer z).getDouble ≤ bound.getDouble) := by
  constructor
  · intro h
    refine ⟨⟨fun bound hbound => ?_, fun bound hbound => ?_⟩, fun bound hb => h bound hb.1⟩
    · have hle := (h (.integer bound) rfl).1 hbound
      exact (nearestDouble_le_iff (hlow bound hbound)).mp (Rat.intCast_le_intCast.mp hle)
    · have hle := (h (.integer bound) rfl).2 hbound
      exact (nearestDouble_le_iff (hhigh bound hbound)).mp (Rat.intCast_le_intCast.mp hle)
  · rintro ⟨⟨hmin, hmax⟩, hdouble⟩ bound hnumber
    cases bound with
    | integer bound =>
      refine ⟨fun hbound => ?_, fun hbound => ?_⟩
      · exact Rat.intCast_le_intCast.mpr (nearestDouble_mono (hmin bound hbound))
      · exact Rat.intCast_le_intCast.mpr (nearestDouble_mono (hmax bound hbound))
    | float bound => exact hdouble (.float bound) ⟨rfl, .inr ⟨hint, rfl⟩⟩
    | _ => exact absurd hnumber Bool.noConfusion

/-- **What passes is declared**, and keeps the bounds that are compared as doubles. -/
theorem Declared.of_passes (hshape : params.isNull = true ∨ params.isObject = true)
    (hknown : ∀ m ∈ params.members, ∃ desc ∈ descriptor.parameters, desc.name = m.1)
    (hpasses : ∀ desc ∈ descriptor.parameters, desc.Passes params)
    (hseparated : Separated descriptor params) :
    Declared descriptor params ∧ WithinDoubles descriptor params := by
  have hint : ∀ desc ∈ descriptor.parameters, desc.type = .int →
      ∀ z, params.find? desc.name = some (.integer z) → desc.KeepsBounds (.integer z) := by
    intro desc hdesc htype z hz
    have hallows := (hpasses desc hdesc).allowed _ hz
    rwa [ParamDescriptor.Allows, htype] at hallows
  refine ⟨⟨hshape, hknown, fun desc hdesc => (hpasses desc hdesc).required,
    fun desc hdesc => (hpasses desc hdesc).typed, ?_, ?_⟩, ?_⟩
  · intro desc hdesc htype value hvalue
    have hallows := (hpasses desc hdesc).allowed value hvalue
    rwa [ParamDescriptor.Allows, htype] at hallows
  · intro desc hdesc htype z hz
    obtain ⟨hlow, hhigh⟩ := hseparated desc hdesc htype z hz
    exact ((keepsBounds_integer_iff htype hlow hhigh).mp (hint desc hdesc htype z hz)).1
  · rintro desc hdesc value hvalue bound ⟨hnumber, htype | ⟨htype, -⟩⟩
    · have hallows := (hpasses desc hdesc).allowed value hvalue
      rw [ParamDescriptor.Allows, htype] at hallows
      exact hallows bound hnumber
    · have hvalueType := (hpasses desc hdesc).typed value hvalue
      rw [htype] at hvalueType
      cases hvalueType with
      | int z => exact hint desc hdesc htype z hvalue bound hnumber

/-- **What is declared passes**, if it keeps the bounds that are compared as doubles. -/
theorem Declared.passes (h : Declared descriptor params) (hdoubles : WithinDoubles descriptor params)
    (hseparated : Separated descriptor params) {desc : ParamDescriptor}
    (hdesc : desc ∈ descriptor.parameters) : desc.Passes params where
  required := h.required desc hdesc
  typed := h.typed desc hdesc
  allowed value hvalue := by
    have hvalueType := h.typed desc hdesc value hvalue
    rw [ParamDescriptor.Allows]
    cases htype : desc.type with
    | enum => exact h.listed desc hdesc htype value hvalue
    | int =>
      rw [htype] at hvalueType
      cases hvalueType with
      | int z =>
        obtain ⟨hlow, hhigh⟩ := hseparated desc hdesc htype z hvalue
        exact (keepsBounds_integer_iff htype hlow hhigh).mpr
          ⟨h.within desc hdesc htype z hvalue, hdoubles desc hdesc _ hvalue⟩
    | double =>
      exact fun bound hnumber => hdoubles desc hdesc value hvalue bound ⟨hnumber, .inl htype⟩
    | _ => trivial

/-- Where no integer is taken for a bound, **nothing is found exactly if** the parameters are as
declared and keep the bounds that are compared as doubles. -/
theorem validates_iff (dump : Json → String) (hseparated : Separated descriptor params) :
    validateParams dump descriptor params = [] ↔
      Declared descriptor params ∧ WithinDoubles descriptor params := by
  rw [validateParams_eq_nil_iff]
  constructor
  · rintro ⟨hshape, hknown, hpasses⟩
    exact Declared.of_passes hshape hknown hpasses hseparated
  · rintro ⟨hdeclared, hdoubles⟩
    exact ⟨hdeclared.object, hdeclared.known,
      fun _ hdesc => hdeclared.passes hdoubles hseparated hdesc⟩

/-- Integers up to `2⁵³` are not taken for each other. -/
theorem separated_of_le
    (hvalues : ∀ desc ∈ descriptor.parameters, ∀ z, params.find? desc.name = some (.integer z) →
      z.natAbs ≤ 2 ^ 53)
    (hbounds : ∀ desc ∈ descriptor.parameters, ∀ key z,
      desc.constraints.find? key = some (.integer z) → z.natAbs ≤ 2 ^ 53) :
    Separated descriptor params := by
  intro desc hdesc _ z hz
  have hvalue := nearestDouble_of_le (hvalues desc hdesc z hz)
  refine ⟨fun bound hbound hlt => ?_, fun bound hbound hlt => ?_⟩
  · rw [hvalue, nearestDouble_of_le (hbounds desc hdesc _ bound hbound)]
    omega
  · rw [hvalue, nearestDouble_of_le (hbounds desc hdesc _ bound hbound)]
    omega

end Passes

/-- **A creation function runs on declared parameters only**, where no integer is taken for a bound:
`validateParams` finds nothing exactly if they are as declared and keep the bounds that are compared
as doubles, and with an issue `create` throws. -/
theorem creates_declared (dump : Json → String) (descriptor : UnitTypeDescriptor) (params : Json)
    (hseparated : Separated descriptor params) :
    (validateParams dump descriptor params = [] ↔
        Declared descriptor params ∧ WithinDoubles descriptor params) ∧
      ∀ (factory : UnitFactory) (typeName instanceName : String) (create : CreateFn),
        factory.types.lookup typeName = some ⟨descriptor, create⟩ →
        (Declared descriptor params ∧ WithinDoubles descriptor params →
          factory.create dump typeName instanceName params = create instanceName params) ∧
        (¬ (Declared descriptor params ∧ WithinDoubles descriptor params) →
          factory.create dump typeName instanceName params =
            .threw (UnitFactory.paramFailure typeName (validateParams dump descriptor params))) := by
  have hiff := validates_iff dump hseparated
  refine ⟨hiff, fun factory typeName instanceName create hentry => ⟨fun h => ?_, fun h => ?_⟩⟩
  · exact UnitFactory.create_of_registered hentry (hiff.mpr h) instanceName
  · have hissues : (validateParams dump descriptor params).isEmpty = false :=
      List.isEmpty_eq_false_iff.mpr fun hnil => h (hiff.mp hnil)
    simp [UnitFactory.create, hentry, hissues]

def countParam : ParamDescriptor where
  name := "count"
  type := .int
  constraints := .object [("max", .integer (2 ^ 53))]

def gainParam : ParamDescriptor where
  name := "gain"
  type := .double
  defaultValue := .integer 1
  constraints := .object [("min", .integer 0)]

/-- A unit type with an integer and a double. -/
def gainType : UnitTypeDescriptor where
  typeName := "Gain"
  parameters := [countParam, gainParam]

/-- Parameters of this type. -/
def gainParams (count gain : ℤ) : Json :=
  .object [("count", .integer count), ("gain", .integer gain)]

theorem find?_count (count gain : ℤ) :
    (gainParams count gain).find? countParam.name = some (.integer count) := rfl

theorem find?_gain (count gain : ℤ) :
    (gainParams count gain).find? gainParam.name = some (.integer gain) := rfl

theorem mem_gainType {desc : ParamDescriptor} :
    desc ∈ gainType.parameters ↔ desc = countParam ∨ desc = gainParam := by
  simp [gainType]

/-- A count that is not above its maximum is as declared, whatever the gain. -/
theorem declared_gainParams {count gain : ℤ} (h : count ≤ 2 ^ 53) :
    Declared gainType (gainParams count gain) where
  object := .inr rfl
  known m hm := by
    rcases List.mem_cons.mp hm with rfl | hm
    · exact ⟨countParam, mem_gainType.mpr (.inl rfl), rfl⟩
    · obtain rfl := List.mem_singleton.mp hm
      exact ⟨gainParam, mem_gainType.mpr (.inr rfl), rfl⟩
  required desc hdesc _ := by
    rcases mem_gainType.mp hdesc with rfl | rfl
    · exact ⟨_, find?_count count gain⟩
    · exact ⟨_, find?_gain count gain⟩
  typed desc hdesc value hvalue := by
    rcases mem_gainType.mp hdesc with rfl | rfl
    · obtain rfl := Option.some.inj ((find?_count count gain).symm.trans hvalue)
      exact .int count
    · obtain rfl := Option.some.inj ((find?_gain count gain).symm.trans hvalue)
      exact .integer gain
  listed desc hdesc htype := by
    rcases mem_gainType.mp hdesc with rfl | rfl <;> cases htype
  within desc hdesc htype z hz := by
    rcases mem_gainType.mp hdesc with rfl | rfl
    · obtain rfl := Json.integer.inj (Option.some.inj ((find?_count count gain).symm.trans hz))
      refine ⟨fun bound hbound => ?_, fun bound hbound => ?_⟩
      · cases hbound
      · obtain rfl := Json.integer.inj (Option.some.inj hbound)
        exact h
    · cases htype

/-- Parameters within the bounds pass. -/
theorem creates_declared_gain :
    Declared gainType (gainParams 5 2) ∧ WithinDoubles gainType (gainParams 5 2) := by
  have hseparated : Separated gainType (gainParams 5 2) := by
    refine separated_of_le (fun desc hdesc z hz => ?_) (fun desc hdesc key z hz => ?_)
    · rcases mem_gainType.mp hdesc with rfl | rfl
      · obtain rfl := Json.integer.inj (Option.some.inj ((find?_count 5 2).symm.trans hz))
        decide
      · obtain rfl := Json.integer.inj (Option.some.inj ((find?_gain 5 2).symm.trans hz))
        decide
    · rcases mem_gainType.mp hdesc with rfl | rfl
      · have hmem : (key, Json.integer z) ∈ countParam.constraints.members :=
          Members.mem_of_lookup hz
        obtain ⟨-, hbound⟩ := Prod.mk.inj (List.mem_singleton.mp hmem)
        obtain rfl := Json.integer.inj hbound
        decide
      · have hmem : (key, Json.integer z) ∈ gainParam.constraints.members :=
          Members.mem_of_lookup hz
        obtain ⟨-, hbound⟩ := Prod.mk.inj (List.mem_singleton.mp hmem)
        obtain rfl := Json.integer.inj hbound
        decide
  exact (creates_declared (fun _ => "") gainType (gainParams 5 2) hseparated).1.mp (by decide +kernel)

/-- **A double is checked against its bounds**, which the types and the lists do not say. -/
theorem gain_below_minimum :
    ¬ (validateParams (fun _ => "") gainType (gainParams 5 (-1)) = [] ↔
      Declared gainType (gainParams 5 (-1))) := by
  intro hiff
  have hnil := hiff.mpr (declared_gainParams (by decide))
  exact absurd hnil (by decide +kernel)

/-- A count that is taken for its maximum. -/
example : validateParams (fun _ => "") gainType (gainParams (2 ^ 53 + 1) 2) = [] := by
  decide +kernel

end AxonVex
