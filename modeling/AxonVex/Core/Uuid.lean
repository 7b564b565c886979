import AxonVex.Machinery.Numerals
import Mathlib.Tactic.IntervalCases

/-!
# Core/Uuid — reading and printing a UUID

    high_ = time_low (8 digits) · time_mid (4) · time_hi_and_version (4)
    low_  = clock_seq (4) · node (12)

`toString` prints five fields of the two words, each by itself; `fromString` drops the separators
and shifts the digits into the words one by one.  The fields are consecutive parts of the numeral of
32 digits, so a printed UUID is read back, and a text that reads as 32 digits is printed back
(`uuid_round_trips`).
-/

namespace AxonVex

open Machinery

/-- `UUID`. -/
structure UUID where
  high_ : BitVec 64
  low_ : BitVec 64
  deriving DecidableEq, Repr

namespace UUID

/-- `UUID()`. -/
def nil : UUID := ⟨0, 0⟩

/-- The lambda `nibble` of `fromString`. -/
def nibble (c : Char) : ℤ :=
  if '0' ≤ c ∧ c ≤ '9' then c.toNat - '0'.toNat
  else if 'a' ≤ c ∧ c ≤ 'f' then 10 + (c.toNat - 'a'.toNat)
  else -1

/-- What `fromString` keeps of a text: no separators, and lower case. -/
def hexOf (s : List Char) : List Char :=
  (s.filter fun c => !(c == '-' || c == '{' || c == '}')).map Char.toLower

/-- The loop of `fromString`, from the digit `i` on. -/
def readDigits (i : ℕ) (parts : BitVec 64 × BitVec 64) : List Char → UUID
  | [] => ⟨parts.1, parts.2⟩
  | c :: rest =>
    if nibble c < 0 then nil
    else if i < 16 then
      readDigits (i + 1) (parts.1 <<< 4 ||| BitVec.ofInt 64 (nibble c), parts.2) rest
    else
      readDigits (i + 1) (parts.1, parts.2 <<< 4 ||| BitVec.ofInt 64 (nibble c)) rest

/-- `fromString(s)`. -/
def fromString (s : List Char) : UUID :=
  if (hexOf s).length ≠ 32 then nil else readDigits 0 (0, 0) (hexOf s)

/-- The lambda `write_hex` of `toString`: `std::hex`, `std::setfill('0')` and `std::setw(width)`. -/
def writeHex (v : BitVec 64) (width : ℕ) : List Char :=
  let mask := if width ≥ 16 then 0xFFFFFFFFFFFFFFFF#64 else (1#64 <<< (width * 4)) - 1#64
  (Nat.toDigits 16 (v &&& mask).toNat).leftpad width '0'

/-- `toString(withHyphens)`. -/
def toString (u : UUID) (withHyphens : Bool) : List Char :=
  let time_low := (u.high_ >>> 32).setWidth 32
  let time_mid := ((u.high_ >>> 16) &&& 0xFFFF).setWidth 16
  let time_hi_and_version := (u.high_ &&& 0xFFFF).setWidth 16
  let clock_seq := (u.low_ >>> 48).setWidth 16
  let node := u.low_ &&& 0x0000FFFFFFFFFFFF
  let hyphen := if withHyphens then ['-'] else []
  writeHex (time_low.setWidth 64) 8 ++ hyphen ++
    writeHex (time_mid.setWidth 64) 4 ++ hyphen ++
    writeHex (time_hi_and_version.setWidth 64) 4 ++ hyphen ++
    writeHex (clock_seq.setWidth 64) 4 ++ hyphen ++ writeHex node 12

/-! ## Hexadecimal digits -/

theorem read_write_nibble : ∀ n < 16, nibble (Nat.digitChar n) = n := by decide

theorem write_read_nibble {c : Char} (h : 0 ≤ nibble c) :
    (nibble c).toNat < 16 ∧ Nat.digitChar (nibble c).toNat = c := by
  have hc : c = Char.ofNat c.toNat := (Char.ofNat_toNat c).symm
  unfold nibble at h ⊢
  split at h
  next hdigit =>
    have hlow : 48 ≤ c.toNat := hdigit.1
    have hhigh : c.toNat ≤ 57 := hdigit.2
    rw [if_pos hdigit]
    generalize c.toNat = k at *
    subst hc
    interval_cases k <;> decide
  next hdigit =>
    split at h
    next hletter =>
      have hlow : 97 ≤ c.toNat := hletter.1
      have hhigh : c.toNat ≤ 102 := hletter.2
      rw [if_neg hdigit, if_pos hletter]
      generalize c.toNat = k at *
      subst hc
      interval_cases k <;> decide
    next => exact absurd h (by decide)

/-- The digits of `std::hex`, as `fromString` reads them. -/
def hex : Digits 16 Char where
  write := Nat.digitChar
  read c := if 0 ≤ nibble c then some (nibble c).toNat else none
  read_write n hn := by
    rw [read_write_nibble n hn, if_pos (Int.natCast_nonneg n)]
    rfl
  write_read c n h := by
    split at h
    next hc =>
      obtain ⟨⟩ := h
      exact write_read_nibble hc
    next => cases h

theorem fixed_hex_zero (k : ℕ) : hex.fixed k 0 = List.replicate k '0' := by
  induction k with
  | zero => rfl
  | succ k ih =>
    rw [Digits.fixed_succ, Nat.zero_div, ih, List.replicate_succ']
    rfl

/-- The digits that a stream pads to the width. -/
theorem leftpad_toDigits {k v : ℕ} (hv : v < 16 ^ (k + 1)) :
    (Nat.toDigits 16 v).leftpad (k + 1) '0' = hex.fixed (k + 1) v := by
  induction k generalizing v with
  | zero =>
    have hlt : v < 16 := hv
    rw [Nat.toDigits_of_lt_base hlt, Digits.fixed_succ, Nat.mod_eq_of_lt hlt]
    rfl
  | succ k ih =>
    rw [Digits.fixed_succ]
    rcases Nat.lt_or_ge v 16 with hlt | hge
    · rw [Nat.toDigits_of_lt_base hlt, Nat.div_eq_of_lt hlt, Nat.mod_eq_of_lt hlt, fixed_hex_zero]
      rfl
    · have hdiv : v / 16 < 16 ^ (k + 1) := by
        rw [Nat.pow_succ] at hv
        exact Nat.div_lt_of_lt_mul (by rw [Nat.mul_comm]; exact hv)
      rw [Nat.toDigits_of_base_le (by decide) hge, ← ih hdiv, List.leftpad, List.leftpad,
        List.length_append, List.length_singleton, Nat.add_sub_add_right, List.append_assoc]
      rfl

/-! ## Printing -/

theorem toNat_mask {width : ℕ} (hwidth : width < 16) :
    ((1#64 <<< (width * 4)) - 1#64).toNat = 2 ^ (width * 4) - 1 := by
  have hlt : 2 ^ (width * 4) < 2 ^ 64 := Nat.pow_lt_pow_right (by decide) (by omega)
  have hpos : 0 < 2 ^ (width * 4) := Nat.pow_pos (by decide)
  have hone : (1#64 <<< (width * 4)).toNat = 2 ^ (width * 4) := by
    rw [BitVec.toNat_shiftLeft, BitVec.toNat_ofNat, Nat.one_mod, Nat.one_shiftLeft,
      Nat.mod_eq_of_lt hlt]
  rw [BitVec.toNat_sub, hone, BitVec.toNat_ofNat]
  omega

/-- **A field is printed** with the digits of its width. -/
theorem writeHex_eq (v : BitVec 64) {k : ℕ} (hk : k + 1 < 16) :
    writeHex v (k + 1) = hex.fixed (k + 1) v.toNat := by
  have hpow : 2 ^ ((k + 1) * 4) = 16 ^ (k + 1) := by rw [Nat.mul_comm, Nat.pow_mul]
  rw [writeHex, if_neg (by omega), BitVec.toNat_and, toNat_mask hk,
    Nat.and_two_pow_sub_one_eq_mod, hpow, leftpad_toDigits (Nat.mod_lt _ (by positivity)),
    Digits.fixed_mod]

/-- The fields of a word are parts of its numeral. -/
theorem toNat_time_low (v : BitVec 64) :
    (((v >>> 32).setWidth 32).setWidth 64).toNat = v.toNat / 16 ^ 8 := by
  have hlt := v.isLt
  simp only [BitVec.toNat_setWidth, BitVec.toNat_ushiftRight, Nat.shiftRight_eq_div_pow]
  omega

theorem toNat_time_mid (v : BitVec 64) :
    ((((v >>> 16) &&& 0xFFFF).setWidth 16).setWidth 64).toNat = v.toNat / 16 ^ 4 % 16 ^ 4 := by
  have hmask : (0xFFFF : BitVec 64).toNat = 2 ^ 16 - 1 := rfl
  rw [BitVec.toNat_setWidth, BitVec.toNat_setWidth, BitVec.toNat_and, hmask,
    Nat.and_two_pow_sub_one_eq_mod, BitVec.toNat_ushiftRight, Nat.shiftRight_eq_div_pow]
  omega

theorem toNat_time_hi (v : BitVec 64) :
    (((v &&& 0xFFFF).setWidth 16).setWidth 64).toNat = v.toNat % 16 ^ 4 := by
  have hmask : (0xFFFF : BitVec 64).toNat = 2 ^ 16 - 1 := rfl
  rw [BitVec.toNat_setWidth, BitVec.toNat_setWidth, BitVec.toNat_and, hmask,
    Nat.and_two_pow_sub_one_eq_mod]
  omega

theorem toNat_clock_seq (v : BitVec 64) :
    (((v >>> 48).setWidth 16).setWidth 64).toNat = v.toNat / 16 ^ 12 := by
  have hlt := v.isLt
  simp only [BitVec.toNat_setWidth, BitVec.toNat_ushiftRight, Nat.shiftRight_eq_div_pow]
  omega

theorem toNat_node (v : BitVec 64) : (v &&& 0x0000FFFFFFFFFFFF).toNat = v.toNat % 16 ^ 12 := by
  have hmask : (0x0000FFFFFFFFFFFF : BitVec 64).toNat = 2 ^ 48 - 1 := rfl
  rw [BitVec.toNat_and, hmask, Nat.and_two_pow_sub_one_eq_mod]
  rfl

/-- The five fields, with what stands between them. -/
theorem toString_fields (u : UUID) (withHyphens : Bool) :
    toString u withHyphens =
      hex.fixed 8 (u.high_.toNat / 16 ^ 8) ++ (if withHyphens then ['-'] else []) ++
      hex.fixed 4 (u.high_.toNat / 16 ^ 4) ++ (if withHyphens then ['-'] else []) ++
      hex.fixed 4 u.high_.toNat ++ (if withHyphens then ['-'] else []) ++
      hex.fixed 4 (u.low_.toNat / 16 ^ 12) ++ (if withHyphens then ['-'] else []) ++
      hex.fixed 12 u.low_.toNat := by
  rw [toString, writeHex_eq _ (k := 7) (by decide), writeHex_eq _ (k := 3) (by decide),
    writeHex_eq _ (k := 3) (by decide), writeHex_eq _ (k := 3) (by decide),
    writeHex_eq _ (k := 11) (by decide), toNat_time_low, toNat_time_mid, toNat_time_hi,
    toNat_clock_seq, toNat_node, Digits.fixed_mod, Digits.fixed_mod, Digits.fixed_mod]

/-- **Without hyphens** the digits of the two words are printed. -/
theorem toString_eq (u : UUID) :
    toString u false = hex.fixed 16 u.high_.toNat ++ hex.fixed 16 u.low_.toNat := by
  have hhigh : hex.fixed 16 u.high_.toNat = hex.fixed 8 (u.high_.toNat / 16 ^ 8) ++
      (hex.fixed 4 (u.high_.toNat / 16 ^ 4) ++ hex.fixed 4 u.high_.toNat) := by
    rw [← hex.fixed_add 4 4, ← hex.fixed_add 8 8]
  have hlow : hex.fixed 16 u.low_.toNat =
      hex.fixed 4 (u.low_.toNat / 16 ^ 12) ++ hex.fixed 12 u.low_.toNat :=
    hex.fixed_add 4 12 _
  rw [toString_fields, hhigh, hlow]
  simp only [Bool.false_eq_true, if_false, List.append_nil, List.append_assoc]

/-! ## Reading -/

/-- A digit is shifted in. -/
theorem shift_or (m : ℕ) {n : ℕ} (hn : n < 16) :
    BitVec.ofNat 64 m <<< 4 ||| BitVec.ofNat 64 n = BitVec.ofNat 64 (16 * m + n) := by
  apply BitVec.eq_of_toNat_eq
  rw [BitVec.toNat_or, BitVec.toNat_shiftLeft, BitVec.toNat_ofNat, BitVec.toNat_ofNat,
    BitVec.toNat_ofNat, Nat.shiftLeft_eq]
  have hshift : m % 2 ^ 64 * 2 ^ 4 % 2 ^ 64 = (m % 2 ^ 60) <<< 4 := by
    rw [Nat.shiftLeft_eq]
    omega
  rw [hshift, Nat.mod_eq_of_lt (a := n) (by omega), ← Nat.shiftLeft_add_eq_or_of_lt (by omega),
    Nat.shiftLeft_eq]
  omega

theorem nibble_cases (c : Char) :
    (nibble c < 0 ∧ hex.read c = none) ∨
      ∃ n < 16, hex.read c = some n ∧ ¬ nibble c < 0 ∧ BitVec.ofInt 64 (nibble c) = BitVec.ofNat 64 n := by
  by_cases hc : 0 ≤ nibble c
  · have hread : hex.read c = some (nibble c).toNat := if_pos hc
    refine .inr ⟨(nibble c).toNat, (hex.write_read c _ hread).1, hread, by omega, ?_⟩
    obtain ⟨n, hn⟩ := Int.eq_ofNat_of_zero_le hc
    rw [hn]
    exact BitVec.ofInt_natCast 64 n
  · exact .inl ⟨by omega, if_neg hc⟩

/-- **Digits are read into the second word.** -/
theorem readDigits_low (high : BitVec 64) {i m : ℕ} (hi : 16 ≤ i) (cs : List Char) :
    readDigits i (high, BitVec.ofNat 64 m) cs =
      (hex.valueFrom m cs).elim nil fun n => ⟨high, BitVec.ofNat 64 n⟩ := by
  induction cs generalizing i m with
  | nil => rfl
  | cons c cs ih =>
    rw [readDigits, Digits.valueFrom]
    rcases nibble_cases c with ⟨hneg, hread⟩ | ⟨n, hn, hread, hpos, hbits⟩
    · rw [if_pos hneg, hread]
      rfl
    · rw [if_neg hpos, if_neg (by omega), hread, hbits, shift_or m hn, ih (by omega)]
      rfl

/-- **Digits are read into the first word**, up to sixteen. -/
theorem readDigits_high (low : BitVec 64) {i m : ℕ} (cs ds : List Char) (hi : i + cs.length ≤ 16) :
    readDigits i (BitVec.ofNat 64 m, low) (cs ++ ds) =
      (hex.valueFrom m cs).elim nil fun n =>
        readDigits (i + cs.length) (BitVec.ofNat 64 n, low) ds := by
  induction cs generalizing i m with
  | nil => rfl
  | cons c cs ih =>
    rw [List.length_cons] at hi
    rw [List.cons_append, readDigits, Digits.valueFrom]
    rcases nibble_cases c with ⟨hneg, hread⟩ | ⟨n, hn, hread, hpos, hbits⟩
    · rw [if_pos hneg, hread]
      rfl
    · rw [if_neg hpos, if_pos (by omega), hread, hbits, shift_or m hn, ih (by omega),
        List.length_cons, Nat.add_right_comm, Nat.add_assoc]
      rfl

/-- A text of 32 letters is read into the two words. -/
theorem fromString_of_length {s : List Char} (hs : (hexOf s).length = 32) :
    fromString s = (hex.valueFrom 0 ((hexOf s).take 16)).elim nil fun high =>
      (hex.valueFrom 0 ((hexOf s).drop 16)).elim nil fun low =>
        ⟨BitVec.ofNat 64 high, BitVec.ofNat 64 low⟩ := by
  have htake : ((hexOf s).take 16).length = 16 := by
    rw [List.length_take, hs]
    rfl
  have hsplit : hexOf s = (hexOf s).take 16 ++ (hexOf s).drop 16 := (List.take_append_drop 16 _).symm
  rw [fromString, if_neg (not_not_intro hs), hsplit, List.take_left' htake, List.drop_left' htake]
  rw [show ((0, 0) : BitVec 64 × BitVec 64) = (BitVec.ofNat 64 0, 0) from rfl,
    readDigits_high 0 _ _ (by omega), htake]
  congr 1
  funext high
  exact readDigits_low _ le_rfl _

/-! ## The two round trips -/

/-- `"0123456789abcdef"`. -/
def hexDigits : List Char := "0123456789abcdef".toList

theorem read_isSome_iff {c : Char} : (hex.read c).isSome = true ↔ c ∈ hexDigits := by
  have hwritten : ∀ n < 16, Nat.digitChar n ∈ hexDigits := by decide
  have hread : hexDigits.all (fun c => (hex.read c).isSome) = true := by decide
  refine ⟨fun h => ?_, List.all_eq_true.mp hread c⟩
  obtain ⟨n, hn⟩ := Option.isSome_iff_exists.mp h
  obtain ⟨hlt, rfl⟩ := hex.write_read c n hn
  exact hwritten n hlt

theorem hexOf_append (s t : List Char) : hexOf (s ++ t) = hexOf s ++ hexOf t := by
  rw [hexOf, List.filter_append, List.map_append, hexOf, hexOf]

/-- Digits are kept as they are. -/
theorem hexOf_of_digits {s : List Char} (h : ∀ c ∈ s, c ∈ hexDigits) : hexOf s = s := by
  have hkept : hexDigits.all (fun c =>
      !(c == '-' || c == '{' || c == '}') && c.toLower == c) = true := by
    decide
  have hboth (c : Char) (hc : c ∈ s) :=
    Bool.and_eq_true_iff.mp (List.all_eq_true.mp hkept c (h c hc))
  rw [hexOf, List.filter_eq_self.mpr fun c hc => (hboth c hc).1]
  exact (List.map_congr_left fun c hc => beq_iff_eq.mp (hboth c hc).2).trans (List.map_id s)

theorem hexOf_fixed (k v : ℕ) : hexOf (hex.fixed k v) = hex.fixed k v :=
  hexOf_of_digits fun _ hc => read_isSome_iff.mp (hex.read_of_mem_fixed (by decide) hc)

/-- The hyphens are dropped. -/
theorem hexOf_toString (u : UUID) (withHyphens : Bool) :
    hexOf (toString u withHyphens) = toString u false := by
  have hhyphen : hexOf (if withHyphens then ['-'] else []) = [] := by
    cases withHyphens <;> rfl
  rw [toString_fields, toString_fields]
  simp only [hexOf_append, hexOf_fixed, hhyphen, Bool.false_eq_true, if_false]

/-- **A printed UUID is read back.** -/
theorem fromString_toString (u : UUID) (withHyphens : Bool) :
    fromString (toString u withHyphens) = u := by
  have hhex : hexOf (toString u withHyphens) =
      hex.fixed 16 u.high_.toNat ++ hex.fixed 16 u.low_.toNat := by
    rw [hexOf_toString, toString_eq]
  have hlength : (hexOf (toString u withHyphens)).length = 32 := by
    rw [hhex, List.length_append, Digits.length_fixed, Digits.length_fixed]
  have hword (v : BitVec 64) : hex.valueFrom 0 (hex.fixed 16 v.toNat) = some v.toNat := by
    rw [hex.valueFrom_fixed (by decide), Nat.mul_zero, Nat.zero_add]
    exact congrArg some (Nat.mod_eq_of_lt v.isLt)
  rw [fromString_of_length hlength, hhex, List.take_left' (hex.length_fixed 16 _),
    List.drop_left' (hex.length_fixed 16 _), hword, hword]
  simp only [Option.elim_some, BitVec.ofNat_toNat, BitVec.setWidth_eq]

/-- **A text of 32 digits is printed back.** -/
theorem toString_fromString {s : List Char} (hs : (hexOf s).length = 32)
    (hdigits : ∀ c ∈ hexOf s, c ∈ hexDigits) : toString (fromString s) false = hexOf s := by
  have hvalue (cs : List Char) (hcs : cs.length = 16) (hsub : ∀ c ∈ cs, c ∈ hexOf s) :
      ∃ n, hex.valueFrom 0 cs = some n ∧ hex.fixed 16 (BitVec.ofNat 64 n).toNat = cs := by
    have hsome := (hex.valueFrom_isSome_iff (m := 0)).mpr fun c hc =>
      read_isSome_iff.mpr (hdigits c (hsub c hc))
    obtain ⟨n, hn⟩ := Option.isSome_iff_exists.mp hsome
    have hfixed := hex.fixed_of_value hn
    rw [hcs] at hfixed
    refine ⟨n, hn, ?_⟩
    rw [BitVec.toNat_ofNat]
    exact (hex.fixed_mod 16 n).trans hfixed
  obtain ⟨high, hhigh, hfixedHigh⟩ := hvalue ((hexOf s).take 16) (by rw [List.length_take, hs]; rfl)
    fun c hc => List.mem_of_mem_take hc
  obtain ⟨low, hlow, hfixedLow⟩ := hvalue ((hexOf s).drop 16) (by rw [List.length_drop, hs])
    fun c hc => List.mem_of_mem_drop hc
  rw [fromString_of_length hs, hhigh, hlow, toString_eq]
  simp only [Option.elim_some]
  rw [hfixedHigh, hfixedLow, List.take_append_drop]

/-- **Any other text is read as the nil UUID.** -/
theorem fromString_eq_nil {s : List Char}
    (h : ¬ ((hexOf s).length = 32 ∧ ∀ c ∈ hexOf s, c ∈ hexDigits)) : fromString s = nil := by
  by_cases hs : (hexOf s).length = 32
  · have hbad : ¬ ∀ c ∈ hexOf s, (hex.read c).isSome = true := fun hall =>
      h ⟨hs, fun c hc => read_isSome_iff.mp (hall c hc)⟩
    rw [fromString_of_length hs]
    cases hhigh : hex.valueFrom 0 ((hexOf s).take 16) with
    | none => rfl
    | some high =>
      cases hlow : hex.valueFrom 0 ((hexOf s).drop 16) with
      | none => rfl
      | some low =>
        refine absurd (fun c hc => ?_) hbad
        rw [← List.take_append_drop 16 (hexOf s), List.mem_append] at hc
        rcases hc with hc | hc
        · exact hex.valueFrom_isSome_iff.mp (Option.isSome_iff_exists.mpr ⟨high, hhigh⟩) c hc
        · exact hex.valueFrom_isSome_iff.mp (Option.isSome_iff_exists.mpr ⟨low, hlow⟩) c hc
  · exact if_pos hs

/-- **Reading and printing are inverse to each other**: on every UUID, and on every text that reads
as 32 digits; every other text reads as the nil UUID. -/
theorem uuid_round_trips (u : UUID) (withHyphens : Bool) (s : List Char) :
    fromString (toString u withHyphens) = u ∧
      ((hexOf s).length = 32 ∧ (∀ c ∈ hexOf s, c ∈ hexDigits) →
        toString (fromString s) false = hexOf s) ∧
      (¬ ((hexOf s).length = 32 ∧ ∀ c ∈ hexOf s, c ∈ hexDigits) → fromString s = nil) :=
  ⟨fromString_toString u withHyphens, fun h => toString_fromString h.1 h.2, fromString_eq_nil⟩

/-- Separators may stand anywhere, and capitals are read. -/
example : fromString "\x7b0123-4567-89AB-CDEF-----0123456789abcdef\x7d".toList =
    ⟨0x0123456789ABCDEF, 0x0123456789ABCDEF⟩ := by decide

end UUID

end AxonVex
