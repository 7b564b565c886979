import AxonVex.Configuration.Store
import Mathlib.Data.List.Forall2

/-!
# Configuration/Patterns — which keys a pattern selects

A glob denotes the keys that split into one part for each of its characters, any text for a star
and the character itself for every other one (`Glob`).  `matchesPattern` compares a pattern without
a star, and lets the single star match; any other pattern is read as a regular expression between
two wildcards, with one character for each star.  It then needs a text at least as long as the
pattern, where the glob is content with its characters without the stars
(`selects_of_plain`).
-/

namespace AxonVex

open Machinery

namespace Configuration

variable {pattern key above : String} {text : List Char} {ms : List (String × Json)}

/-- What a character of a glob matches. -/
def Denotes (c : Char) (part : List Char) : Prop := c = '*' ∨ part = [c]

/-- The text splits into parts that the characters of the glob match. -/
def Glob (glob text : List Char) : Prop :=
  ∃ parts : List (List Char), text = parts.flatten ∧ List.Forall₂ Denotes glob parts

theorem glob_iff_eq {glob : List Char} (h : '*' ∉ glob) : Glob glob text ↔ text = glob := by
  constructor
  · rintro ⟨parts, rfl, hparts⟩
    induction hparts with
    | nil => rfl
    | @cons c part glob parts hc hparts ih =>
      obtain ⟨hne, hglob⟩ := not_or.mp (mt List.mem_cons.mpr h)
      have hpart : part = [c] := hc.resolve_left (Ne.symm hne)
      rw [List.flatten_cons, hpart, ih hglob, List.singleton_append]
  · rintro rfl
    refine ⟨text.map fun c => [c], ?_, ?_⟩
    · rw [← List.flatMap_def, List.flatMap_singleton']
    · rw [List.forall₂_map_right_iff, List.forall₂_same]
      exact fun c _ => .inr rfl

/-- A character other than the star is the next one of the text. -/
theorem Glob.of_cons {c : Char} {glob : List Char} (h : Glob (c :: glob) text) (hc : c ≠ '*') :
    ∃ rest, text = c :: rest ∧ Glob glob rest := by
  obtain ⟨parts, rfl, hparts⟩ := h
  obtain ⟨part, parts, hpart, hrest, rfl⟩ := List.forall₂_cons_left_iff.mp hparts
  refine ⟨parts.flatten, ?_, parts, rfl, hrest⟩
  rw [List.flatten_cons, hpart.resolve_left hc, List.singleton_append]

theorem glob_star : Glob ['*'] text :=
  ⟨[text], by simp, .cons (.inl rfl) .nil⟩

/-- Every star may match nothing. -/
theorem glob_filter (glob : List Char) : Glob glob (glob.filter (· ≠ '*')) := by
  refine ⟨glob.map fun c => if c = '*' then [] else [c], ?_, ?_⟩
  · induction glob with
    | nil => rfl
    | cons c glob ih =>
      rw [List.filter_cons, List.map_cons, List.flatten_cons, ← ih]
      by_cases hc : c = '*' <;> simp [hc]
  · rw [List.forall₂_map_right_iff, List.forall₂_same]
    intro c _
    by_cases hc : c = '*'
    · exact .inl hc
    · exact .inr (if_neg hc)

/-! ## The regular expression -/

/-- The pattern does not use the syntax of regular expressions, `.` apart. -/
def IsPlain (pattern : String) : Prop :=
  ∀ c ∈ pattern.toList, c = '*' ∨ c ∉ Regex.special

theorem regexPattern_eq :
    regexPattern pattern =
      '.' :: '*' :: (pattern.toList.map fun c => if c = '*' then '.' else c) ++ ['.', '*'] := rfl

theorem matchesPattern_of_parse_eq_none (h : Regex.parse (regexPattern pattern) = none)
    (hstar : '*' ∈ pattern.toList) (hne : pattern ≠ "*") : matchesPattern key pattern = false := by
  rw [matchesPattern, if_neg hne, if_pos hstar, h]

theorem parse_regexPattern (h : IsPlain pattern) :
    Regex.parse (regexPattern pattern) = some (.seq (.loop 0 none true .any)
      (.plainSeq (pattern.toList.map fun c => if c = '*' then '.' else c))) := by
  refine regexPattern_eq ▸ Regex.parse_plain fun d hd => ?_
  obtain ⟨c, hc, rfl⟩ := List.mem_map.mp hd
  by_cases hcstar : c = '*'
  · rw [if_pos hcstar]
    decide
  · rw [if_neg hcstar]
    exact (h c hc).resolve_left hcstar

/-- **A plain pattern needs a text of its length.** -/
theorem matchesPattern_of_short (h : IsPlain pattern) (hstar : '*' ∈ pattern.toList)
    (hne : pattern ≠ "*") (hshort : key.toList.length < pattern.toList.length) :
    matchesPattern key pattern = false := by
  rw [matchesPattern, if_neg hne, if_pos hstar, parse_regexPattern h]
  refine Regex.fullMatch_eq_false ?_
  rw [Regex.minLength, Regex.minLength_plainSeq, List.length_map]
  exact hshort.trans_eq (Nat.zero_add _).symm

/-- **What a plain pattern with a star matches**: the keys that contain, between texts without a line
terminator, one character for each of its own, any for a star or a dot. -/
theorem matchesPattern_iff (h : IsPlain pattern) (hstar : '*' ∈ pattern.toList)
    (hne : pattern ≠ "*") : matchesPattern key pattern = true ↔ key.toList ∈
      KStar.kstar (Regex.atom '.') *
        ((pattern.toList.map fun c => Regex.atom (if c = '*' then '.' else c)).prod *
          KStar.kstar (Regex.atom '.')) := by
  rw [matchesPattern, if_neg hne, if_pos hstar, parse_regexPattern h,
    (Regex.reads_wildcard.seq (Regex.reads_plainSeq _)).fullMatch, List.map_map]
  rfl

/-- `motor*` matches `xmotor1`. -/
theorem matchesPattern_iff_motor : "xmotor1".toList ∈
    KStar.kstar (Regex.atom '.') *
      (("motor*".toList.map fun c => Regex.atom (if c = '*' then '.' else c)).prod *
        KStar.kstar (Regex.atom '.')) :=
  (matchesPattern_iff (by simp [IsPlain, Regex.special]) (by decide) (by decide)).mp (by decide +kernel)

/-! ## The keys below a tree -/

theorem matchesPattern_star (key : String) : matchesPattern key "*" = true := rfl

theorem filter_selected :
    (if matchesPattern key "*" then [key] else []).filter (fun key => matchesPattern key pattern) =
      if matchesPattern key pattern then [key] else [] := by
  rw [if_pos (matchesPattern_star key), List.filter_singleton, cond_eq_ite]

mutual

theorem traverseMember_eq_filter : ∀ (above : String) (m : String × Json),
    traverseMember pattern above m =
      (traverseMember "*" above m).filter fun key => matchesPattern key pattern
  | above, (key, .object ms) => by
    rw [traverseMember, traverseMember, traverse_eq_filter, List.filter_append, filter_selected]
  | above, (key, .null) => by simp only [traverseMember, filter_selected]
  | above, (key, .boolean b) => by simp only [traverseMember, filter_selected]
  | above, (key, .integer z) => by simp only [traverseMember, filter_selected]
  | above, (key, .float v) => by simp only [traverseMember, filter_selected]
  | above, (key, .string s) => by simp only [traverseMember, filter_selected]
  | above, (key, .array xs) => by simp only [traverseMember, filter_selected]

/-- **The traversal collects the keys that match.** -/
theorem traverse_eq_filter : ∀ (above : String) (ms : List (String × Json)),
    traverse pattern above ms =
      (traverse "*" above ms).filter fun key => matchesPattern key pattern
  | above, [] => by rw [traverse, traverse, List.filter_nil]
  | above, m :: ms => by
    rw [traverse, traverse, traverseMember_eq_filter, traverse_eq_filter, List.filter_append]

end

/-- **A pattern selects the keys it denotes**: as such, among the keys of a configuration, and for
the callbacks that are registered with it. -/
structure Selects (pattern : String) : Prop where
  matches_iff (key : String) : matchesPattern key pattern = true ↔ Glob pattern.toList key.toList
  getKeys_eq (c : Store) : ∀ keys, c.getKeys "*" = some keys →
    ∃ selected, c.getKeys pattern = some selected ∧
      ∀ key, key ∈ selected ↔ key ∈ keys ∧ Glob pattern.toList key.toList
  notified_iff (c : Store) (id : ℕ) (key : String) (oldValue newValue : Json) :
    (∀ other, (id, other) ∈ c.callbacks ↔ other = pattern) →
    (⟨id, key, oldValue, newValue⟩ ∈ c.notifyCallbacks key oldValue newValue ↔
      Glob pattern.toList key.toList)

theorem getKeys_eq_map (c : Store) (pattern : String) :
    c.getKeys pattern =
      (c.getKeys "*").map fun keys => keys.filter fun key => matchesPattern key pattern := by
  unfold Store.getKeys
  split
  · rw [traverse_eq_filter, Option.map_some]
  all_goals rfl

theorem mem_notifyCallbacks {c : Store} {id : ℕ} {oldValue newValue : Json} :
    ⟨id, key, oldValue, newValue⟩ ∈ c.notifyCallbacks key oldValue newValue ↔
      ∃ pattern, (id, pattern) ∈ c.callbacks ∧ matchesPattern key pattern = true := by
  simp [Store.notifyCallbacks, and_assoc]

/-- What the pattern matches is what it selects. -/
theorem Selects.of_matches
    (h : ∀ key, matchesPattern key pattern = true ↔ Glob pattern.toList key.toList) :
    Selects pattern where
  matches_iff := h
  getKeys_eq c keys hkeys := by
    refine ⟨keys.filter fun key => matchesPattern key pattern, ?_, fun key => ?_⟩
    · rw [getKeys_eq_map, hkeys, Option.map_some]
    · rw [List.mem_filter, h]
  notified_iff c id key oldValue newValue hid := by
    rw [mem_notifyCallbacks, ← h]
    constructor
    · rintro ⟨other, hmem, hmatch⟩
      rwa [(hid other).mp hmem] at hmatch
    · exact fun hmatch => ⟨pattern, (hid pattern).mpr rfl, hmatch⟩

/-- **A pattern without a star, and the star alone, select the keys they denote; no other plain
pattern does, and none whose expression cannot be parsed.** -/
theorem selects_of_plain (pattern : String) :
    ('*' ∉ pattern.toList ∨ pattern = "*" → Selects pattern) ∧
      (IsPlain pattern ∨ Regex.parse (regexPattern pattern) = none →
        Selects pattern → '*' ∉ pattern.toList ∨ pattern = "*") := by
  constructor
  · rintro (hstar | rfl)
    · refine .of_matches fun key => ?_
      have hne : pattern ≠ "*" := by
        rintro rfl
        exact hstar (by decide)
      rw [matchesPattern, if_neg hne, if_neg hstar, glob_iff_eq hstar, decide_eq_true_eq,
        String.toList_inj]
    · exact .of_matches fun key => ⟨fun _ => glob_star, fun _ => rfl⟩
  · intro hkind hselects
    by_contra hnot
    obtain ⟨hstar, hne⟩ := not_or.mp hnot
    have hmem : '*' ∈ pattern.toList := not_not.mp hstar
    -- the shortest key of the glob is shorter than every match of the expression
    let shortest := pattern.toList.filter (· ≠ '*')
    have hglob : Glob pattern.toList (String.ofList shortest).toList := by
      rw [String.toList_ofList]
      exact glob_filter pattern.toList
    have hmatch := (hselects.matches_iff _).mpr hglob
    rcases hkind with hplain | hnone
    · have hshort : (String.ofList shortest).toList.length < pattern.toList.length := by
        rw [String.toList_ofList]
        exact List.length_filter_lt_length_iff_exists.mpr ⟨'*', hmem, by simp⟩
      rw [matchesPattern_of_short hplain hmem hne hshort] at hmatch
      exact absurd hmatch (by simp)
    · rw [matchesPattern_of_parse_eq_none hnone hmem hne] at hmatch
      exact absurd hmatch (by simp)

/-- The pattern of the keys below `motor` matches a key of another name. -/
theorem matchesPattern_motor :
    matchesPattern "xmotor1" "motor*" = true ∧ ¬ Glob "motor*".toList "xmotor1".toList := by
  refine ⟨by decide +kernel, ?_⟩
  intro hglob
  have hglob' : Glob ('m' :: "otor*".toList) ('x' :: "motor1".toList) := hglob
  obtain ⟨rest, hrest, -⟩ := hglob'.of_cons (by decide)
  exact absurd (List.cons.inj hrest).1 (by decide)

end Configuration

end AxonVex
