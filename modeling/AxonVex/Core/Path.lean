import Mathlib.Data.List.Basic

/-!
# Core/Path — the whitelist of `Path`

A path is in the whitelist if, taken relative to one of the default directories, it does not begin
with `..`.  What does not exist has no canonical form, `pathRelativeCompat` then gives the path back
as it is, and an absolute path begins with `/`: so every path that does not exist is in the whitelist,
as soon as one default directory does (`whitelist_sound_iff`).

    exists:           canonical form   relative to the directory     "x/y"  or  "../x"
    does not exist:   made absolute    given back as it is           "/any/path"
-/

namespace AxonVex

/-- `std::filesystem::path`: its elements, of which the root directory is one. -/
abbrev FsPath := List String

namespace FsPath

/-- `is_absolute()`. -/
def isAbsolute (p : FsPath) : Bool := p.head? == some "/"

/-- `p /= element`, where `p` does not end in a separator. -/
def push (p : FsPath) (element : String) : FsPath := if element = "/" then ["/"] else p ++ [element]

/-- Absolute, without blank elements, `.` and `..`. -/
structure IsCanonical (p : FsPath) : Prop where
  root : p.head? = some "/"
  plain : ∀ e ∈ p.tail, e ≠ "/" ∧ e ≠ "" ∧ e ≠ "." ∧ e ≠ ".."

/-- One element of a path, after those that have been resolved. -/
def resolve (done : FsPath) (element : String) : FsPath :=
  if element = "" ∨ element = "." then done
  else if element = ".." then if done.length ≤ 1 then done else done.dropLast
  else done ++ [element]

/-- The absolute path with `.` and `..` resolved, without a look at the file system. -/
def lexicallyNormal (p : FsPath) : FsPath := p.foldl resolve []

/-- What is left of two paths behind what they have in common. -/
def stripCommon : FsPath → FsPath → FsPath × FsPath
  | x :: xs, y :: ys => if x = y then stripCommon xs ys else (x :: xs, y :: ys)
  | xs, ys => (xs, ys)

end FsPath

open FsPath

/-- A file system: the canonical form of each path that exists, and the current path. -/
structure Filesystem where
  currentPath : FsPath
  entry : FsPath → Option FsPath
  currentPath_canonical : IsCanonical currentPath
  entry_nil : entry [] = none
  entry_canonical : ∀ p c, entry p = some c → IsCanonical c
  entry_entry : ∀ p c, entry p = some c → entry c = some c
  /-- a relative path is one from the current path on -/
  entry_relative : ∀ p, p ≠ [] → isAbsolute p = false → entry (currentPath ++ p) = entry p

namespace Filesystem

variable (fs : Filesystem)

/-- The path, from the current path on if it is relative. -/
def makeAbsolute (p : FsPath) : FsPath := if isAbsolute p then p else fs.currentPath ++ p

/-- `Path::absolute()`: `std::filesystem::absolute` throws on the empty path. -/
def absolute (p : FsPath) : FsPath := if p = [] then p else fs.makeAbsolute p

/-- `Path::canonical()`. -/
def canonical (p : FsPath) : FsPath := (fs.entry p).getD (fs.absolute p)

/-- `pathRelativeCompat(p, base)`: where `std::filesystem::canonical` throws, it is `p`. -/
def pathRelativeCompat (p base : FsPath) : FsPath :=
  match fs.entry p, fs.entry base with
  | some c1, some c2 =>
    let (rest, above) := stripCommon c1 c2
    rest.foldl push (above.foldl (fun result _ => push result "..") [])
  | _, _ => p

/-- Whether the path is in the whitelist for the sake of this directory. -/
def isWithin (p dir : FsPath) : Bool :=
  match fs.entry dir with
  | none => false
  | some canonicalDir =>
    match fs.pathRelativeCompat (fs.canonical p) canonicalDir with
    | [] => false
    | first :: _ => first != ".."

/-- `isInWhitelist()`, with these default directories. -/
def isInWhitelist (defaultDirs : List FsPath) (p : FsPath) : Bool :=
  defaultDirs.any (fs.isWithin p)

/-- Where a path leads: its canonical form if it exists, and else the absolute path, resolved
lexically. -/
def target (p : FsPath) : FsPath := (fs.entry p).getD (lexicallyNormal (fs.makeAbsolute p))

/-- The path lies inside one of the directories. -/
def Inside (defaultDirs : List FsPath) (p : FsPath) : Prop :=
  ∃ dir ∈ defaultDirs, ∃ canonicalDir, fs.entry dir = some canonicalDir ∧
    canonicalDir <+: fs.target p

/-- **The condition**: the path exists, or is empty; or no default directory exists; or it leads
into one of them. -/
def Screened (defaultDirs : List FsPath) (p : FsPath) : Prop :=
  (fs.entry p).isSome ∨ p = [] ∨ (∀ dir ∈ defaultDirs, fs.entry dir = none) ∨ fs.Inside defaultDirs p

end Filesystem

/-! ## Relative paths -/

namespace FsPath

variable {p q : FsPath}

/-- What two paths have in common comes off both. -/
theorem stripCommon_spec (p q : FsPath) :
    ∃ common, p = common ++ (stripCommon p q).1 ∧ q = common ++ (stripCommon p q).2 := by
  fun_induction stripCommon p q with
  | case1 xs y ys ih =>
    obtain ⟨common, hp, hq⟩ := ih
    exact ⟨y :: common, congrArg (List.cons y) hp, congrArg (List.cons y) hq⟩
  | case2 x xs y ys hne => exact ⟨[], rfl, rfl⟩
  | case3 xs ys hne => exact ⟨[], rfl, rfl⟩

/-- Two canonical paths have their root in common. -/
theorem IsCanonical.stripCommon (hp : p.IsCanonical) (hq : q.IsCanonical) :
    ∃ common, common ≠ [] ∧ p = common ++ (stripCommon p q).1 ∧
      q = common ++ (stripCommon p q).2 := by
  obtain ⟨x, xs, rfl⟩ := List.exists_cons_of_ne_nil fun h : p = [] => by simpa [h] using hp.root
  obtain ⟨y, ys, rfl⟩ := List.exists_cons_of_ne_nil fun h : q = [] => by simpa [h] using hq.root
  obtain rfl : x = "/" := Option.some.inj hp.root
  obtain rfl : y = "/" := Option.some.inj hq.root
  obtain ⟨common, hxs, hys⟩ := stripCommon_spec xs ys
  refine ⟨"/" :: common, List.cons_ne_nil _ _, ?_, ?_⟩
  · rw [FsPath.stripCommon, if_pos rfl]
    exact congrArg (List.cons "/") hxs
  · rw [FsPath.stripCommon, if_pos rfl]
    exact congrArg (List.cons "/") hys

/-- Elements that are no roots are appended. -/
theorem foldl_push (done : FsPath) (h : ∀ e ∈ p, e ≠ "/") : p.foldl push done = done ++ p := by
  induction p generalizing done with
  | nil => exact (List.append_nil done).symm
  | cons e p ih =>
    rw [List.foldl_cons, push, if_neg (h e List.mem_cons_self),
      ih _ fun e' he' => h e' (List.mem_cons_of_mem e he')]
    exact List.append_assoc done [e] p

theorem foldl_up (above done : FsPath) :
    above.foldl (fun result _ => push result "..") done = done ++ above.map fun _ => ".." := by
  rw [← foldl_push done (by simp), List.foldl_map]

/-- What is left of a canonical path behind a common beginning has no root. -/
theorem IsCanonical.ne_root {common rest : FsPath} (h : p.IsCanonical) (hcommon : common ≠ [])
    (hp : p = common ++ rest) : ∀ e ∈ rest, e ≠ "/" := by
  intro e he
  obtain ⟨x, xs, rfl⟩ := List.exists_cons_of_ne_nil hcommon
  subst hp
  exact (h.plain e (List.mem_append_right xs he)).1

end FsPath

namespace Filesystem

variable {fs : Filesystem} {p c dir d : FsPath} {defaultDirs : List FsPath}

/-- **The relative path between canonical paths**: up to what they have in common, and down. -/
theorem pathRelativeCompat_canonical (hc : fs.entry c = some c) (hd : fs.entry d = some d) :
    ∃ common rest above, common ≠ [] ∧ c = common ++ rest ∧ d = common ++ above ∧
      fs.pathRelativeCompat c d = above.map (fun _ => "..") ++ rest := by
  have hcanonical := fs.entry_canonical c c hc
  obtain ⟨common, hne, hrest, habove⟩ := hcanonical.stripCommon (fs.entry_canonical d d hd)
  refine ⟨common, _, _, hne, hrest, habove, ?_⟩
  unfold pathRelativeCompat
  rw [hc, hd]
  dsimp only
  rw [foldl_up, foldl_push _ (hcanonical.ne_root hne hrest)]
  rfl

/-- **An existing path is checked**: it is in the whitelist only below a default directory. -/
theorem inside_of_exists (hp : fs.entry p = some c) (h : fs.isInWhitelist defaultDirs p = true) :
    fs.Inside defaultDirs p := by
  obtain ⟨dir, hdir, hwithin⟩ := List.any_eq_true.mp h
  unfold isWithin at hwithin
  split at hwithin
  · exact absurd hwithin Bool.false_ne_true
  next d hd =>
    have hcanonical : fs.canonical p = c := by rw [canonical, hp, Option.getD_some]
    obtain ⟨common, rest, above, -, hc, hd', hrelative⟩ :=
      pathRelativeCompat_canonical (fs.entry_entry p c hp) (fs.entry_entry dir d hd)
    rw [hcanonical, hrelative] at hwithin
    refine ⟨dir, hdir, d, hd, ?_⟩
    rw [target, hp, Option.getD_some]
    cases above with
    | nil =>
      rw [List.append_nil] at hd'
      exact ⟨rest, by rw [hd', ← hc]⟩
    | cons x above => exact absurd hwithin (by simp)

/-- An absolute path begins with the root. -/
theorem head?_makeAbsolute (fs : Filesystem) (p : FsPath) :
    (fs.makeAbsolute p).head? = some "/" := by
  unfold makeAbsolute
  split
  next h => simpa [isAbsolute] using h
  next =>
    have hroot := fs.currentPath_canonical.root
    obtain ⟨x, xs, hx⟩ := List.exists_cons_of_ne_nil fun h : fs.currentPath = [] => by
      simp [h] at hroot
    rw [hx] at hroot ⊢
    exact hroot

theorem entry_makeAbsolute (hne : p ≠ []) : fs.entry (fs.makeAbsolute p) = fs.entry p := by
  unfold makeAbsolute
  split
  · rfl
  next h => exact fs.entry_relative p hne (by simpa using h)

/-- **A path that does not exist is let through** by any directory that does. -/
theorem isWithin_of_not_exists (hne : p ≠ []) (hp : fs.entry p = none)
    (hdir : fs.entry dir = some d) : fs.isWithin p dir = true := by
  have hcanonical : fs.canonical p = fs.makeAbsolute p := by
    rw [canonical, hp, Option.getD_none, absolute, if_neg hne]
  have hnone : fs.entry (fs.makeAbsolute p) = none := (entry_makeAbsolute hne).trans hp
  have hrelative : fs.pathRelativeCompat (fs.makeAbsolute p) d = fs.makeAbsolute p := by
    unfold pathRelativeCompat
    rw [hnone]
  have hroot := fs.head?_makeAbsolute p
  unfold isWithin
  rw [hdir]
  dsimp only
  rw [hcanonical, hrelative]
  cases habsolute : fs.makeAbsolute p with
  | nil => exact absurd hroot (by simp [habsolute])
  | cons first rest =>
    rw [habsolute] at hroot
    obtain rfl : first = "/" := Option.some.inj hroot
    have hdown : ("/" != "..") = true := by decide
    exact hdown

/-- The empty path is never let through. -/
theorem isWithin_nil (fs : Filesystem) (dir : FsPath) : fs.isWithin [] dir = false := by
  have hcanonical : fs.canonical [] = [] := by
    rw [canonical, fs.entry_nil, Option.getD_none, absolute, if_pos rfl]
  have hrelative (d : FsPath) : fs.pathRelativeCompat [] d = [] := by
    unfold pathRelativeCompat
    rw [fs.entry_nil]
  unfold isWithin
  rw [hcanonical]
  split
  · rfl
  · rw [hrelative]

/-- **When the whitelist keeps what it promises**: a path that it lets through lies inside one of the
default directories. -/
theorem whitelist_sound_iff (fs : Filesystem) (defaultDirs : List FsPath) (p : FsPath) :
    (fs.isInWhitelist defaultDirs p = true → fs.Inside defaultDirs p) ↔
      fs.Screened defaultDirs p := by
  constructor
  · intro h
    cases hp : fs.entry p with
    | some c => exact .inl (by rw [hp]; rfl)
    | none =>
      by_cases hne : p = []
      · exact .inr (.inl hne)
      · by_cases hdirs : ∀ dir ∈ defaultDirs, fs.entry dir = none
        · exact .inr (.inr (.inl hdirs))
        · push Not at hdirs
          obtain ⟨dir, hdir, hsome⟩ := hdirs
          obtain ⟨d, hd⟩ := Option.ne_none_iff_exists'.mp hsome
          exact .inr (.inr (.inr (h (List.any_eq_true.mpr
            ⟨dir, hdir, isWithin_of_not_exists hne hp hd⟩))))
  · rintro (hexists | rfl | hdirs | hinside) h
    · obtain ⟨c, hc⟩ := Option.isSome_iff_exists.mp hexists
      exact inside_of_exists hc h
    · obtain ⟨dir, -, hwithin⟩ := List.any_eq_true.mp h
      exact absurd (fs.isWithin_nil dir) (by simp [hwithin])
    · obtain ⟨dir, hdir, hwithin⟩ := List.any_eq_true.mp h
      rw [isWithin, hdirs dir hdir] at hwithin
      exact absurd hwithin Bool.false_ne_true
    · exact hinside

/-! ## A file system with one directory -/

/-- The current path is the root, and nothing else exists but `/data`. -/
def onlyData : Filesystem where
  currentPath := ["/"]
  entry p := if p = ["/", "data"] ∨ p = ["data"] then some ["/", "data"] else none
  currentPath_canonical := ⟨rfl, by simp⟩
  entry_nil := rfl
  entry_canonical p c h := by
    split_ifs at h
    obtain ⟨⟩ := h
    exact ⟨rfl, by decide⟩
  entry_entry p c h := by
    split_ifs at h
    obtain ⟨⟩ := h
    rfl
  entry_relative p hne h := by
    have hroot : p ≠ ["/", "data"] := by
      rintro rfl
      exact absurd h (by decide)
    simp [hroot]

/-- **`/etc/new` is in the whitelist**, although only `/data` is a default directory: it does not
exist yet. -/
theorem outside_accepted : ¬ ∀ (fs : Filesystem) (defaultDirs : List FsPath) (p : FsPath),
    fs.isInWhitelist defaultDirs p = true → fs.Inside defaultDirs p := by
  intro h
  obtain ⟨dir, hdir, d, hd, hprefix⟩ := h onlyData [["/", "data"]] ["/", "etc", "new"] (by decide)
  obtain rfl := List.mem_singleton.mp hdir
  obtain rfl : ["/", "data"] = d := Option.some.inj hd
  exact absurd hprefix (by decide)

end Filesystem

end AxonVex
