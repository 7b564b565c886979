import Mathlib.Computability.Language
import Mathlib.Tactic.Linarith

/-!
# Machinery/Regex — regular expressions in the ECMAScript syntax

    text ──parse──▸ Regex ──run──▸ the states a match may end in, the preferred one first

A matcher walks the text by backtracking, so `run` yields every state it may reach; an expression
matches a whole text when one of them has nothing left (`fullMatch`).  A text that is not an
expression does not parse.

`minLength` is the least number of characters an expression may take, and a match takes no fewer
(`length_of_mem_run`).  A text without special characters is an expression that takes its length
(`parse_plain`); what it matches is a language (`Reads`).
-/

namespace Machinery

/-- An item of a bracket expression. -/
inductive ClassItem
  | char (c : Char)
  | range (lower upper : Char)
  /-- `\d`, `\w`, `\s`, `[:alpha:]` and their like -/
  | named (holds : Char → Bool)

/-- The item holds of the character. -/
def ClassItem.holds (c : Char) : ClassItem → Bool
  | .char d => c == d
  | .range lower upper => lower ≤ c && c ≤ upper
  | .named p => p c

/-- A regular expression. -/
inductive Regex
  | empty
  | char (c : Char)
  /-- `.` -/
  | any
  /-- a bracket expression, complemented if `negated`; a class outside of brackets is one item -/
  | oneOf (negated : Bool) (items : List ClassItem)
  | seq (a b : Regex)
  | alt (a b : Regex)
  /-- a group in parentheses, with its number if it captures -/
  | group (index : Option ℕ) (r : Regex)
  /-- `(?=r)`, and `(?!r)` if `negated` -/
  | look (negated : Bool) (r : Regex)
  /-- `^` -/
  | atBegin
  /-- `$` -/
  | atEnd
  /-- `\b`, and `\B` if `negated` -/
  | boundary (negated : Bool)
  /-- the text of a group -/
  | backref (index : ℕ)
  /-- a quantifier: at least `lower` and at most `upper` times; a lazy one is not `greedy` -/
  | loop (lower : ℕ) (upper : Option ℕ) (greedy : Bool) (r : Regex)

namespace Regex

/-! ## Characters -/

/-- `\w`. -/
def isWord (c : Char) : Bool := c.isAlphanum || c == '_'

/-- `\s`. -/
def isSpace (c : Char) : Bool := c ∈ [' ', '\t', '\n', Char.ofNat 11, Char.ofNat 12, '\r']

/-- The characters that `.` does not match. -/
def isLineTerminator (c : Char) : Bool := c == '\n' || c == '\r'

/-- A visible character of ASCII. -/
def isGraph (c : Char) : Bool := '!' ≤ c && c ≤ '~'

/-- The class of `\d`, `\w`, `\s` and, for the capital letters, of their complements. -/
def escapeClass : Char → Option (Char → Bool)
  | 'd' => some Char.isDigit
  | 'D' => some fun c => !c.isDigit
  | 'w' => some isWord
  | 'W' => some fun c => !isWord c
  | 's' => some isSpace
  | 'S' => some fun c => !isSpace c
  | _ => none

/-- The class `[:name:]`. -/
def posixClass (name : List Char) : Option (Char → Bool) :=
  [("alnum", Char.isAlphanum), ("alpha", Char.isAlpha), ("digit", Char.isDigit),
    ("d", Char.isDigit), ("upper", Char.isUpper), ("lower", Char.isLower), ("space", isSpace),
    ("s", isSpace), ("w", isWord), ("blank", fun c => c == ' ' || c == '\t'),
    ("graph", isGraph), ("print", fun c => isGraph c || c == ' '),
    ("punct", fun c => isGraph c && !c.isAlphanum),
    ("cntrl", fun c => c.toNat < 32 || c.toNat == 127),
    ("xdigit", fun c => c.isDigit || ('a' ≤ c && c ≤ 'f') || ('A' ≤ c && c ≤ 'F'))].lookup
    (String.ofList name)

/-- The value of a hexadecimal digit. -/
def hexDigit (c : Char) : Option ℕ :=
  if c.isDigit then some (c.toNat - '0'.toNat)
  else if 'a' ≤ c && c ≤ 'f' then some (c.toNat - 'a'.toNat + 10)
  else if 'A' ≤ c && c ≤ 'F' then some (c.toNat - 'A'.toNat + 10)
  else none

/-- The character of exactly `n` hexadecimal digits. -/
def hexEscape (n : ℕ) (text : List Char) : Option (Char × List Char) := do
  guard (n ≤ text.length)
  let digits ← (text.take n).mapM hexDigit
  pure (Char.ofNat (digits.foldl (fun value d => 16 * value + d) 0), text.drop n)

/-- The character an escape stands for, outside and inside of brackets. -/
def charEscape : List Char → Option (Char × List Char)
  | 'f' :: text => some (Char.ofNat 12, text)
  | 'n' :: text => some ('\n', text)
  | 'r' :: text => some ('\r', text)
  | 't' :: text => some ('\t', text)
  | 'v' :: text => some (Char.ofNat 11, text)
  | '0' :: text => some (Char.ofNat 0, text)
  | 'c' :: c :: text => if c.isAlpha then some (Char.ofNat (c.toNat % 32), text) else none
  | 'x' :: text => hexEscape 2 text
  | 'u' :: text => hexEscape 4 text
  | c :: text => some (c, text)
  | [] => none

/-! ## Brackets -/

/-- The text before `:]`, and what is behind. -/
def posixName : List Char → Option (List Char × List Char)
  | ':' :: ']' :: text => some ([], text)
  | c :: text => (posixName text).map fun r => (c :: r.1, r.2)
  | [] => none

/-- One end of a range, or a class. -/
def bracketAtom : List Char → Option (ClassItem × List Char)
  | '[' :: ':' :: text => do
    let (name, text) ← posixName text
    let holds ← posixClass name
    pure (.named holds, text)
  | '\\' :: 'b' :: text => some (.char (Char.ofNat 8), text)
  | '\\' :: c :: text =>
    match escapeClass c with
    | some holds => some (.named holds, text)
    | none => (charEscape (c :: text)).map fun r => (.char r.1, r.2)
  | '\\' :: [] => none
  | c :: text => some (.char c, text)
  | [] => none

/-- The items up to the closing bracket. -/
def bracketItems : ℕ → List Char → Option (List ClassItem × List Char)
  | 0, _ => none
  | _, ']' :: text => some ([], text)
  | fuel + 1, text => do
    let (item, text) ← bracketAtom text
    match item, text with
    | .char lower, '-' :: c :: text' =>
      if c = ']' then
        let (items, text) ← bracketItems fuel text
        pure (item :: items, text)
      else
        let (upper, text) ← bracketAtom (c :: text')
        match upper with
        | .char upper =>
          guard (lower ≤ upper)
          let (items, text) ← bracketItems fuel text
          pure (.range lower upper :: items, text)
        | _ => none
    | _, _ =>
      let (items, text) ← bracketItems fuel text
      pure (item :: items, text)

/-- A bracket expression behind its opening bracket. -/
def bracket : List Char → Option (Regex × List Char)
  | '^' :: text => (bracketItems (text.length + 1) text).map fun r => (.oneOf true r.1, r.2)
  | text => (bracketItems (text.length + 1) text).map fun r => (.oneOf false r.1, r.2)

/-! ## Quantifiers -/

/-- The value of decimal digits. -/
def decimal (digits : List Char) : ℕ :=
  digits.foldl (fun value c => 10 * value + (c.toNat - '0'.toNat)) 0

/-- The bounds of a quantifier in braces, behind the opening one. -/
def braces (text : List Char) : Option ((ℕ × Option ℕ) × List Char) :=
  let lower := text.takeWhile Char.isDigit
  if lower.isEmpty then none
  else match text.dropWhile Char.isDigit with
    | '\x7d' :: text => some ((decimal lower, some (decimal lower)), text)
    | ',' :: '\x7d' :: text => some ((decimal lower, none), text)
    | ',' :: text =>
      let upper := text.takeWhile Char.isDigit
      if upper.isEmpty || decimal upper < decimal lower then none
      else match text.dropWhile Char.isDigit with
        | '\x7d' :: text => some ((decimal lower, some (decimal upper)), text)
        | _ => none
    | _ => none

/-- The bounds of a quantifier at the beginning of the text, if there is one; an opening brace must
begin one. -/
def bounds : List Char → Option (Option (ℕ × Option ℕ) × List Char)
  | '*' :: text => some (some (0, none), text)
  | '+' :: text => some (some (1, none), text)
  | '?' :: text => some (some (0, some 1), text)
  | '\x7b' :: text => (braces text).map fun r => (some r.1, r.2)
  | text => some (none, text)

/-- The quantifiers behind an atom. -/
def quantified : ℕ → Regex → List Char → Option (Regex × List Char)
  | 0, _, _ => none
  | fuel + 1, r, text =>
    match bounds text with
    | none => none
    | some (none, text) => some (r, text)
    | some (some (lower, upper), '?' :: text) => quantified fuel (.loop lower upper false r) text
    | some (some (lower, upper), text) => quantified fuel (.loop lower upper true r) text

/-! ## Expressions -/

/-- An expression, what is behind it, and the number of groups opened so far. -/
abbrev Read := Option (Regex × List Char × ℕ)

/-- An escape outside of brackets, but for the word boundaries. -/
def escape (groups : ℕ) : List Char → Read
  | c :: text =>
    if c.isDigit && c != '0' then
      let digits := (c :: text).takeWhile Char.isDigit
      if decimal digits ≤ groups then
        some (.backref (decimal digits), (c :: text).dropWhile Char.isDigit, groups)
      else none
    else match escapeClass c with
      | some holds => some (.oneOf false [.named holds], text, groups)
      | none => (charEscape (c :: text)).map fun r => (.char r.1, r.2, groups)
  | [] => none

mutual

/-- Alternatives. -/
def parseDisjunction : ℕ → ℕ → List Char → Read
  | 0, _, _ => none
  | fuel + 1, groups, text => do
    let (a, text, groups) ← parseAlternative fuel groups text
    match text with
    | '|' :: text =>
      let (b, text, groups) ← parseDisjunction fuel groups text
      pure (.alt a b, text, groups)
    | text => pure (a, text, groups)

/-- Terms in a row. -/
def parseAlternative : ℕ → ℕ → List Char → Read
  | 0, _, _ => none
  | _, groups, [] => some (.empty, [], groups)
  | _, groups, '|' :: text => some (.empty, '|' :: text, groups)
  | _, groups, ')' :: text => some (.empty, ')' :: text, groups)
  | fuel + 1, groups, text => do
    let (a, text, groups) ← parseTerm fuel groups text
    let (b, text, groups) ← parseAlternative fuel groups text
    pure (.seq a b, text, groups)

/-- An assertion, or an atom with its quantifiers. -/
def parseTerm : ℕ → ℕ → List Char → Read
  | 0, _, _ => none
  | _, groups, '^' :: text => some (.atBegin, text, groups)
  | _, groups, '$' :: text => some (.atEnd, text, groups)
  | _, groups, '\\' :: 'b' :: text => some (.boundary false, text, groups)
  | _, groups, '\\' :: 'B' :: text => some (.boundary true, text, groups)
  | fuel + 1, groups, '(' :: '?' :: '=' :: text => do
    let (r, text, groups) ← parseGroup fuel groups text
    pure (.look false r, text, groups)
  | fuel + 1, groups, '(' :: '?' :: '!' :: text => do
    let (r, text, groups) ← parseGroup fuel groups text
    pure (.look true r, text, groups)
  | fuel + 1, groups, text => do
    let (r, text, groups) ← parseAtom fuel groups text
    let (r, text) ← quantified (text.length + 1) r text
    pure (r, text, groups)

/-- An atom. -/
def parseAtom : ℕ → ℕ → List Char → Read
  | 0, _, _ => none
  | _, groups, '.' :: text => some (.any, text, groups)
  | _, groups, '\\' :: text => escape groups text
  | _, groups, '[' :: text => (bracket text).map fun r => (r.1, r.2, groups)
  | fuel + 1, groups, '(' :: '?' :: ':' :: text => do
    let (r, text, groups) ← parseGroup fuel groups text
    pure (.group none r, text, groups)
  | fuel + 1, groups, '(' :: text => do
    let (r, text, groups') ← parseGroup fuel (groups + 1) text
    pure (.group (some (groups + 1)) r, text, groups')
  | _, groups, c :: text =>
    if c ∈ ['*', '+', '?', '\x7b', ')', '|', '^', '$'] then none else some (.char c, text, groups)
  | _, _, [] => none

/-- Alternatives up to the closing parenthesis. -/
def parseGroup : ℕ → ℕ → List Char → Read
  | 0, _, _ => none
  | fuel + 1, groups, text => do
    let (r, text, groups) ← parseDisjunction fuel groups text
    match text with
    | ')' :: text => pure (r, text, groups)
    | _ => none

end

/-- The expression a text stands for, if it is one. -/
def parse (text : List Char) : Option Regex :=
  match parseDisjunction (4 * text.length + 4) 0 text with
  | some (r, [], _) => some r
  | _ => none

/-! ## Matching -/

/-- A place in a text, with the groups captured so far. -/
structure State where
  /-- what has been read, the last character first -/
  before : List Char := []
  after : List Char
  captures : List (ℕ × List Char) := []

/-- Read one character that satisfies `p`. -/
def State.read (p : Char → Bool) (s : State) : List State :=
  match s.after with
  | [] => []
  | c :: after => if p c then [{ s with before := c :: s.before, after }] else []

/-- Read these characters. -/
def State.readAll : List Char → State → List State
  | [], s => [s]
  | c :: text, s => (s.read (· == c)).flatMap (State.readAll text)

/-- The state stands between a word character and another one. -/
def State.atBoundary (s : State) : Bool :=
  (s.before.head?.any isWord) != (s.after.head?.any isWord)

/-- The numbers of the groups in an expression. -/
def groups : Regex → List ℕ
  | seq a b => a.groups ++ b.groups
  | alt a b => a.groups ++ b.groups
  | group index r => index.toList ++ r.groups
  | look _ r => r.groups
  | loop _ _ _ r => r.groups
  | _ => []

/-- The state without the captures of these groups. -/
def State.forget (s : State) (groups : List ℕ) : State :=
  { s with captures := s.captures.filter fun e => !groups.contains e.1 }

/-- `step` at least `lower` and at most `upper` times; beyond `lower`, only steps that read
something. -/
def iterate (step : State → List State) (greedy : Bool) : ℕ → ℕ → Option ℕ → State → List State
  | 0, lower, _, s => if lower = 0 then [s] else []
  | fuel + 1, lower, upper, s =>
    if upper = some 0 then [s]
    else
      let more := (step s).flatMap fun t =>
        if lower = 0 ∧ t.after.length = s.after.length then []
        else iterate step greedy fuel (lower - 1) (upper.map (· - 1)) t
      if lower ≠ 0 then more else if greedy then more ++ [s] else s :: more

/-- The states a match may end in, in the order in which they are tried. -/
def run : Regex → State → List State
  | empty, s => [s]
  | char c, s => s.read (· == c)
  | any, s => s.read fun c => !isLineTerminator c
  | oneOf negated items, s => s.read fun c => (items.any fun item => item.holds c) != negated
  | seq a b, s => (a.run s).flatMap b.run
  | alt a b, s => a.run s ++ b.run s
  | group index r, s => (r.run s).map fun t =>
    let text := (t.before.take (s.after.length - t.after.length)).reverse
    { t with captures := index.toList.map (·, text) ++ t.captures }
  | look negated r, s =>
    match r.run s with
    | [] => if negated then [s] else []
    | t :: _ => if negated then [] else [{ s with captures := t.captures }]
  | atBegin, s => if s.before.isEmpty then [s] else []
  | atEnd, s => if s.after.isEmpty then [s] else []
  | boundary negated, s => if s.atBoundary != negated then [s] else []
  | backref index, s => s.readAll ((s.captures.lookup index).getD [])
  | loop lower upper greedy r, s =>
    iterate (fun s => r.run (s.forget r.groups)) greedy (s.after.length + lower + 1) lower upper s

/-- `regex_match(text, r)`. -/
def fullMatch (r : Regex) (text : List Char) : Bool :=
  (r.run { after := text }).any fun s => s.after.isEmpty

/-! ## Lengths -/

/-- The least number of turns of a loop. -/
def leastTurns (lower : ℕ) (upper : Option ℕ) : ℕ := upper.elim lower (min lower)

/-- The least number of characters an expression takes. -/
def minLength : Regex → ℕ
  | char _ => 1
  | any => 1
  | oneOf _ _ => 1
  | seq a b => a.minLength + b.minLength
  | alt a b => min a.minLength b.minLength
  | group _ r => r.minLength
  | loop lower upper _ r => leastTurns lower upper * r.minLength
  | _ => 0

variable {s t : State} {text : List Char}

theorem State.length_of_mem_read {p : Char → Bool} (h : t ∈ s.read p) :
    t.after.length + 1 = s.after.length := by
  unfold State.read at h
  split at h
  · cases h
  next c after hs =>
    split_ifs at h
    · obtain rfl := List.mem_singleton.mp h
      rw [hs, List.length_cons]
    · cases h

theorem State.length_of_mem_readAll (h : t ∈ s.readAll text) :
    t.after.length ≤ s.after.length := by
  induction text generalizing s with
  | nil => rw [List.mem_singleton.mp h]
  | cons c text ih =>
    obtain ⟨u, hu, ht⟩ := List.mem_flatMap.mp h
    have hread := State.length_of_mem_read hu
    have hrest := ih ht
    omega

theorem leastTurns_le_succ (lower : ℕ) (upper : Option ℕ) :
    leastTurns lower upper ≤ leastTurns (lower - 1) (upper.map (· - 1)) + 1 := by
  cases upper with
  | none =>
    change lower ≤ lower - 1 + 1
    omega
  | some u =>
    change min lower u ≤ min (lower - 1) (u - 1) + 1
    omega

/-- A loop that may stop has made its turns. -/
theorem leastTurns_eq_zero {lower : ℕ} {upper : Option ℕ} (h : lower = 0 ∨ upper = some 0) :
    leastTurns lower upper = 0 := by
  rcases h with rfl | rfl
  · cases upper with
    | none => rfl
    | some u => exact Nat.zero_min u
  · exact Nat.min_zero lower

/-- **A loop takes its least number of turns.** -/
theorem length_of_mem_iterate {step : State → List State} {greedy : Bool} {n : ℕ}
    (hstep : ∀ s t, t ∈ step s → t.after.length + n ≤ s.after.length) {fuel lower : ℕ}
    {upper : Option ℕ} (h : t ∈ iterate step greedy fuel lower upper s) :
    t.after.length + leastTurns lower upper * n ≤ s.after.length := by
  have hstop {lower : ℕ} {upper : Option ℕ} {s : State} (hmem : t ∈ [s])
      (hdone : lower = 0 ∨ upper = some 0) :
      t.after.length + leastTurns lower upper * n ≤ s.after.length := by
    rw [List.mem_singleton.mp hmem, leastTurns_eq_zero hdone, Nat.zero_mul, Nat.add_zero]
  induction fuel generalizing lower upper s with
  | zero =>
    unfold iterate at h
    split_ifs at h with hlower
    · exact hstop h (.inl hlower)
    · cases h
  | succ fuel ih =>
    have hmore (hmem : t ∈ (step s).flatMap fun t =>
        if lower = 0 ∧ t.after.length = s.after.length then []
        else iterate step greedy fuel (lower - 1) (upper.map (· - 1)) t) :
        t.after.length + leastTurns lower upper * n ≤ s.after.length := by
      obtain ⟨u, hu, hrest⟩ := List.mem_flatMap.mp hmem
      split_ifs at hrest with hidle
      · exact absurd hrest (by simp)
      · have hturn := hstep s u hu
        have hturns := ih hrest
        have hle := Nat.mul_le_mul_right n (leastTurns_le_succ lower upper)
        rw [Nat.add_mul, Nat.one_mul] at hle
        omega
    unfold iterate at h
    split_ifs at h with hzero hlower hgreedy
    · exact hstop h (.inr hzero)
    · exact hmore h
    · exact (List.mem_append.mp h).elim hmore fun hmem => hstop hmem (.inl (not_not.mp hlower))
    · exact (List.mem_cons.mp h).elim
        (fun heq => hstop (List.mem_singleton.mpr heq) (.inl (not_not.mp hlower))) hmore

/-- An assertion reads nothing. -/
theorem State.length_of_mem_ite {c : Prop} [Decidable c] (h : t ∈ if c then [s] else []) :
    t.after.length ≤ s.after.length := by
  split_ifs at h
  · rw [List.mem_singleton.mp h]
  · cases h

/-- **A match takes at least `minLength` characters.** -/
theorem length_of_mem_run {r : Regex} (h : t ∈ r.run s) :
    t.after.length + r.minLength ≤ s.after.length := by
  induction r generalizing s t with
  | empty => exact (congrArg (·.after.length) (List.mem_singleton.mp h)).le
  | seq a b iha ihb =>
    obtain ⟨u, hu, ht⟩ := List.mem_flatMap.mp h
    have ha := iha hu
    have hb := ihb ht
    change t.after.length + (a.minLength + b.minLength) ≤ _
    omega
  | alt a b iha ihb =>
    change t.after.length + min a.minLength b.minLength ≤ _
    rcases List.mem_append.mp h with h | h
    · have ha := iha h
      omega
    · have hb := ihb h
      omega
  | group index r ih =>
    obtain ⟨u, hu, rfl⟩ := List.mem_map.mp h
    change u.after.length + r.minLength ≤ _
    exact ih hu
  | look negated r ih =>
    change t.after.length + 0 ≤ _
    unfold run at h
    split at h
    · exact State.length_of_mem_ite h
    · split_ifs at h
      · cases h
      · rw [List.mem_singleton.mp h]
        exact le_rfl
  | atBegin => exact State.length_of_mem_ite (c := s.before.isEmpty = true) h
  | atEnd => exact State.length_of_mem_ite (c := s.after.isEmpty = true) h
  | boundary negated => exact State.length_of_mem_ite (c := (s.atBoundary != negated) = true) h
  | backref index => exact State.length_of_mem_readAll h
  | loop lower upper greedy r ih =>
    have hturn (s t : State) (hmem : t ∈ r.run (s.forget r.groups)) :
        t.after.length + r.minLength ≤ s.after.length := ih (s := s.forget r.groups) hmem
    exact length_of_mem_iterate hturn h
  | _ => exact (State.length_of_mem_read h).le

/-- A text that is shorter than every match is not matched. -/
theorem fullMatch_eq_false {r : Regex} (h : text.length < r.minLength) :
    r.fullMatch text = false := by
  refine List.any_eq_false.mpr fun t ht => ?_
  have hlen : t.after.length + r.minLength ≤ text.length := length_of_mem_run ht
  omega

/-! ## Plain texts -/

variable {fuel groups : ℕ} {c d : Char}

/-- The characters that do not stand for themselves, `.` apart. -/
def special : List Char := ['^', '$', '\\', '*', '+', '?', '(', ')', '[', '\x7b', '|']

/-- `.` or the character itself. -/
def plainAtom (c : Char) : Regex := if c = '.' then any else char c

theorem minLength_plainAtom : (plainAtom c).minLength = 1 := by
  rw [plainAtom]
  split <;> rfl

theorem parseAtom_plain (h : c ∉ special) :
    parseAtom (fuel + 1) groups (c :: text) = some (plainAtom c, text, groups) := by
  by_cases hdot : c = '.'
  · subst hdot
    simp [parseAtom, plainAtom]
  · have hsub : ['*', '+', '?', '\x7b', ')', '|', '^', '$'] ⊆ special := by decide
    rw [plainAtom, if_neg hdot, parseAtom, if_neg fun hmem => h (hsub hmem)]
    · exact hdot
    · rintro rfl
      exact absurd h (by decide)
    · rintro rfl
      exact absurd h (by decide)
    · exact Nat.succ_ne_zero fuel
    · rintro _ _ - rfl -
      exact absurd h (by decide)
    · rintro _ - rfl
      exact absurd h (by decide)

theorem bounds_plain (h : c ∉ special) : bounds (c :: text) = some (none, c :: text) := by
  rw [bounds]
  all_goals
    rintro _ ⟨rfl, -⟩
    exact absurd h (by decide)

theorem quantified_plain {r : Regex} (hd : d ∉ special) :
    quantified (fuel + 1) r (d :: text) = some (r, d :: text) := by
  rw [quantified, bounds_plain hd]

theorem quantified_star {r : Regex} (hd : d ∉ special) :
    quantified (fuel + 2) r ('*' :: d :: text) = some (loop 0 none true r, d :: text) := by
  have hgreedy : d ≠ '?' := by
    rintro rfl
    exact absurd hd (by decide)
  have hbounds : bounds ('*' :: d :: text) = some (some (0, none), d :: text) := rfl
  rw [quantified, hbounds]
  simp [hgreedy, quantified_plain hd]

theorem parseTerm_plain (h : c ∉ special) (hd : d ∉ special) :
    parseTerm (fuel + 2) groups (c :: d :: text) = some (plainAtom c, d :: text, groups) := by
  rw [parseTerm]
  · rw [parseAtom_plain h]
    simp [quantified_plain hd]
  all_goals
    rintro _ ⟨rfl, -⟩
    exact absurd h (by decide)

theorem parseAlternative_plain (h : c ∉ special) (hd : d ∉ special) :
    parseAlternative (fuel + 3) groups (c :: d :: text) =
      (parseAlternative (fuel + 2) groups (d :: text)).map fun r => (seq (plainAtom c) r.1, r.2) := by
  rw [parseAlternative]
  · rw [parseTerm_plain h hd, Option.bind_eq_bind, Option.bind_some, Option.map_eq_bind]
    rfl
  · exact fun hnil => absurd hnil (List.cons_ne_nil _ _)
  all_goals
    rintro _ ⟨rfl, -⟩
    exact absurd h (by decide)

theorem head_plain_append (h : ∀ c ∈ text, c ∉ special) :
    ∃ d rest, text ++ ['.', '*'] = d :: rest ∧ d ∉ special := by
  cases text with
  | nil => exact ⟨'.', ['*'], rfl, by decide⟩
  | cons d text => exact ⟨d, text ++ ['.', '*'], rfl, h d List.mem_cons_self⟩

/-- The expression of a plain text with a wildcard behind it. -/
def plainSeq : List Char → Regex
  | [] => seq (loop 0 none true any) empty
  | c :: text => seq (plainAtom c) (plainSeq text)

theorem minLength_plainSeq (text : List Char) : (plainSeq text).minLength = text.length := by
  induction text with
  | nil => rfl
  | cons c text ih =>
    rw [plainSeq, minLength, minLength_plainAtom, ih, List.length_cons, Nat.add_comm]

theorem parseAlternative_plain_append (h : ∀ c ∈ text, c ∉ special)
    (hfuel : text.length + 5 ≤ fuel) :
    parseAlternative fuel groups (text ++ ['.', '*']) = some (plainSeq text, [], groups) := by
  induction text generalizing fuel with
  | nil =>
    obtain ⟨n, rfl⟩ := Nat.exists_eq_add_of_le hfuel
    rw [List.length_nil, Nat.zero_add, Nat.add_comm, plainSeq]
    simp [parseAlternative, parseTerm, parseAtom, quantified, bounds]
  | cons c text ih =>
    rw [List.length_cons] at hfuel
    obtain ⟨n, rfl⟩ := Nat.exists_eq_add_of_le' (show 3 ≤ fuel by omega)
    obtain ⟨hc, htext⟩ := List.forall_mem_cons.mp h
    obtain ⟨d, rest, hrest, hd⟩ := head_plain_append htext
    rw [List.cons_append, hrest, parseAlternative_plain hc hd, ← hrest, ih htext (by omega), plainSeq]
    rfl

theorem parseTerm_wildcard (hd : d ∉ special) :
    parseTerm (fuel + 2) groups ('.' :: '*' :: d :: text) =
      some (loop 0 none true any, d :: text, groups) := by
  simp [parseTerm, parseAtom, quantified_star hd]

/-- **A plain text between wildcards is an expression**, which takes at least its length. -/
theorem parse_plain (h : ∀ c ∈ text, c ∉ special) :
    parse ('.' :: '*' :: text ++ ['.', '*']) = some (seq (loop 0 none true any) (plainSeq text)) := by
  obtain ⟨n, hfuel, hn⟩ : ∃ n, 4 * ('.' :: '*' :: text ++ ['.', '*']).length + 4 = n + 4 ∧
      text.length + 5 ≤ n + 2 := ⟨_, rfl, by simp; omega⟩
  have hr : parseAlternative (n + 2) 0 (text ++ ['.', '*']) = some (plainSeq text, [], 0) :=
    parseAlternative_plain_append h hn
  obtain ⟨d, rest, hrest, hd⟩ := head_plain_append h
  rw [List.cons_append, List.cons_append, hrest] at hfuel ⊢
  rw [hrest] at hr
  rw [parse, hfuel, parseDisjunction, parseAlternative, parseTerm_wildcard hd]
  · simp [hr]
  · exact List.cons_ne_nil _ _
  · rintro _ ⟨⟩
  · rintro _ ⟨⟩

/-! ## Languages -/

/-- From any state the expression reads the texts of the language, and no others. -/
def Reads (r : Regex) (L : Language Char) : Prop :=
  ∀ s rest, (∃ t ∈ r.run s, t.after = rest) ↔ ∃ w ∈ L, s.after = w ++ rest

/-- What `plainAtom` reads. -/
def atom (c : Char) : Language Char :=
  {w | ∃ d, (if c = '.' then isLineTerminator d = false else d = c) ∧ w = [d]}

variable {a b : Regex} {L M : Language Char} {rest : List Char}

theorem exists_read {p : Char → Bool} :
    (∃ t ∈ s.read p, t.after = rest) ↔ ∃ d, p d = true ∧ s.after = d :: rest := by
  obtain ⟨before, after, captures⟩ := s
  cases after with
  | nil => simp [State.read]
  | cons d after =>
    by_cases hd : p d = true
    · simp [State.read, hd]
    · simp only [State.read, if_neg hd, List.cons.injEq]
      simp only [List.not_mem_nil, false_and, exists_false, false_iff, not_exists, not_and]
      rintro _ he rfl
      exact absurd he hd

theorem reads_plainAtom (c : Char) : (plainAtom c).Reads (atom c) := by
  intro s rest
  have hatom : (∃ w ∈ atom c, s.after = w ++ rest) ↔
      ∃ d, (if c = '.' then isLineTerminator d = false else d = c) ∧ s.after = d :: rest := by
    constructor
    · rintro ⟨_, ⟨d, hd, rfl⟩, hs⟩
      exact ⟨d, hd, hs⟩
    · rintro ⟨d, hd, hs⟩
      exact ⟨[d], ⟨d, hd, rfl⟩, hs⟩
  rw [hatom, plainAtom]
  split <;> simp [run, exists_read]

theorem Reads.seq (ha : a.Reads L) (hb : b.Reads M) : (seq a b).Reads (L * M) := by
  intro s rest
  simp only [run, List.mem_flatMap]
  constructor
  · rintro ⟨t, ⟨t', ht', ht⟩, hrest⟩
    obtain ⟨w, hw, hs⟩ := (ha s t'.after).mp ⟨t', ht', rfl⟩
    obtain ⟨v, hv, hs'⟩ := (hb t' rest).mp ⟨t, ht, hrest⟩
    exact ⟨w ++ v, Language.append_mem_mul hw hv, by rw [hs, hs', List.append_assoc]⟩
  · rintro ⟨_, ⟨w, hw, v, hv, rfl⟩, hs⟩
    obtain ⟨t', ht', hs'⟩ := (ha s (v ++ rest)).mpr ⟨w, hw, by rw [hs, List.append_assoc]⟩
    obtain ⟨t, ht, hrest⟩ := (hb t' rest).mpr ⟨v, hv, hs'⟩
    exact ⟨t, ⟨t', ht', ht⟩, hrest⟩

/-- The turns of a loop read something each. -/
theorem Reads.iterate (h : a.Reads L) (hnil : [] ∉ L) {n : ℕ} (hn : s.after.length ≤ n) :
    (∃ t ∈ iterate (fun s => a.run (s.forget a.groups)) true n 0 none s, t.after = rest) ↔
      ∃ w ∈ KStar.kstar L, s.after = w ++ rest := by
  induction n generalizing s with
  | zero =>
    have hs : s.after = [] := List.length_eq_zero_iff.mp (Nat.le_zero.mp hn)
    simp [Regex.iterate, hs, eq_comm, Language.nil_mem_kstar]
  | succ n ih =>
    have hiter : Regex.iterate (fun s => a.run (s.forget a.groups)) true (n + 1) 0 none s =
        ((a.run (s.forget a.groups)).flatMap fun t => if t.after.length = s.after.length then []
          else Regex.iterate (fun s => a.run (s.forget a.groups)) true n 0 none t) ++ [s] := by
      simp [Regex.iterate]
    have hshorter {w v : List Char} (hw : w ∈ L) (hs : s.after = w ++ v) :
        v.length < s.after.length := by
      rw [hs, List.length_append]
      exact Nat.lt_add_of_pos_left (List.length_pos_iff.mpr fun he => hnil (he ▸ hw))
    rw [hiter, ← Language.one_add_self_mul_kstar_eq_kstar]
    constructor
    · rintro ⟨t, ht, hrest⟩
      rcases List.mem_append.mp ht with ht | ht
      · obtain ⟨t', ht', ht⟩ := List.mem_flatMap.mp ht
        obtain ⟨w, hw, hs⟩ := (h (s.forget a.groups) t'.after).mp ⟨t', ht', rfl⟩
        have hlt := hshorter hw hs
        rw [if_neg hlt.ne] at ht
        obtain ⟨v, hv, hs'⟩ := (ih (by omega)).mp ⟨t, ht, hrest⟩
        refine ⟨w ++ v, .inr (Language.append_mem_mul hw hv), ?_⟩
        rw [List.append_assoc, ← hs']
        exact hs
      · obtain rfl := List.mem_singleton.mp ht
        exact ⟨[], .inl rfl, hrest⟩
    · rintro ⟨_, rfl | ⟨w, hw, v, hv, rfl⟩, hs⟩
      · exact ⟨s, by simp, hs⟩
      · rw [List.append_assoc] at hs
        obtain ⟨t', ht', hs'⟩ := (h (s.forget a.groups) (v ++ rest)).mpr ⟨w, hw, hs⟩
        have hlt : t'.after.length < s.after.length := hs' ▸ hshorter hw hs
        obtain ⟨t, ht, hrest⟩ := (ih (by omega)).mpr ⟨v, hv, hs'⟩
        refine ⟨t, List.mem_append_left _ (List.mem_flatMap.mpr ⟨t', ht', ?_⟩), hrest⟩
        rwa [if_neg hlt.ne]

theorem reads_wildcard : (loop 0 none true any).Reads (KStar.kstar (atom '.')) := fun s rest =>
  (reads_plainAtom '.').iterate (fun ⟨_, _, h⟩ => by cases h) (by omega)

theorem reads_plainSeq (text : List Char) :
    (plainSeq text).Reads ((text.map atom).prod * KStar.kstar (atom '.')) := by
  induction text with
  | nil =>
    have hempty : empty.Reads 1 := fun s rest => by simp [run, Language.mem_one]
    rw [List.map_nil, List.prod_nil, one_mul, plainSeq, ← mul_one (KStar.kstar _)]
    exact reads_wildcard.seq hempty
  | cons c text ih =>
    rw [List.map_cons, List.prod_cons, mul_assoc]
    exact (reads_plainAtom c).seq ih

theorem Reads.fullMatch (h : a.Reads L) : a.fullMatch text = true ↔ text ∈ L := by
  have hstate := h { after := text } []
  simpa [Regex.fullMatch] using hstate

end Regex

end Machinery
