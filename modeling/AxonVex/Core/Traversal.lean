import AxonVex.Core.Path
import AxonVex.Machinery.Splitting

/-!
# Core/Traversal — the traversal check of `Path`

    "a/../b"    "..\\x"    "x/.."      traversal: a component is ".."
    "a..b"      "..."      "./x"       none

`hasDirectoryTraversal` reads the path once, with the component so far in hand, and ends a component
at `/`, at `\` and at the end.  It is exact for the components between both separators, and a
relative path that passes leads into the directory it is taken from and never above it on the way,
whether `\` separates or not (`traversal_exact`).
-/

namespace AxonVex

open Machinery FsPath

namespace Traversal

/-- `'/'` or `'\\'`. -/
def isSeparator (c : Char) : Bool := c == '/' || c == '\\'

/-- `'/'`, the native separator of POSIX. -/
def isSlash (c : Char) : Bool := c == '/'

/-- `component == ".."`. -/
def isParent (component : List Char) : Bool := component == ['.', '.']

/-- The loop, with the component read so far and what is left of the path. -/
def scan (component : List Char) : List Char → Bool
  | [] => isParent component
  | c :: rest =>
    if isSeparator c then isParent component || scan [] rest else scan (component ++ [c]) rest

/-- `hasDirectoryTraversal()`. -/
def hasDirectoryTraversal (path_str : String) : Bool := scan [] path_str.toList

/-! ## Components, and where they lead -/

/-- The components of a path between these separators. -/
def components (separator : Char → Bool) (path_str : String) : List String :=
  (path_str.toList.splitOnP separator).map String.ofList

/-- `is_absolute()`, of the text. -/
def isAbsolute (path_str : String) : Bool := path_str.toList.head? == some '/'

/-- Where a path begins that is taken from the directory `d`. -/
def start (d : FsPath) (path_str : String) : FsPath := if isAbsolute path_str then ["/"] else d

/-- The directories on the way, component by component. -/
def visited (separator : Char → Bool) (d : FsPath) (path_str : String) : List FsPath :=
  (components separator path_str).scanl resolve (start d path_str)

/-! ## The scan -/

theorem isParent_iff {component : List Char} :
    isParent component = true ↔ String.ofList component = ".." := by
  rw [isParent, beq_iff_eq]
  constructor
  · rintro rfl
    rfl
  · intro h
    have hlist := congrArg String.toList h
    rwa [String.toList_ofList] at hlist

/-- The scan looks for `..` among the components, of which the first has been begun. -/
theorem scan_iff (component rest : List Char) : scan component rest = true ↔
    ∃ w ∈ rest.splitOnPPrepend isSeparator component.reverse, isParent w = true := by
  induction rest generalizing component with
  | nil => simp [scan]
  | cons c rest ih =>
    cases hc : isSeparator c with
    | true =>
      rw [scan, if_pos hc, List.splitOnPPrepend_cons_pos hc, Bool.or_eq_true, ih,
        List.reverse_nil, List.splitOnPPrepend_nil_right, List.reverse_reverse,
        List.exists_mem_cons_iff]
    | false =>
      rw [scan, if_neg (by simp [hc]), List.splitOnPPrepend_cons_neg hc, ih,
        List.reverse_append, List.reverse_singleton, List.singleton_append]

/-- **The check is exact**: it finds a `..` between separators, and nothing else. -/
theorem hasDirectoryTraversal_iff (path_str : String) :
    hasDirectoryTraversal path_str = true ↔ ".." ∈ components isSeparator path_str := by
  rw [hasDirectoryTraversal, scan_iff, List.reverse_nil, List.splitOnPPrepend_nil_right,
    components, List.mem_map]
  simp only [isParent_iff]

example : hasDirectoryTraversal "a\\../b" = true ∧ hasDirectoryTraversal "a..b/.../.x" = false := by
  decide

/-! ## Resolving -/

variable {d done : FsPath} {separator : Char → Bool} {path_str : String}

/-- A component that is not `..` does not lead up. -/
theorem prefix_resolve {element : String} (h : element ≠ "..") : done <+: resolve done element := by
  unfold resolve
  split_ifs
  · exact List.prefix_rfl
  · exact List.prefix_append ..

/-- **No way up**: without `..` each directory on the way lies in the one before. -/
theorem prefix_of_mem_scanl {elements : List String} (h : ".." ∉ elements) :
    ∀ e ∈ elements.scanl resolve done, done <+: e := by
  induction elements generalizing done with
  | nil =>
    intro e he
    rw [List.scanl_nil] at he
    obtain rfl := List.mem_singleton.mp he
    exact List.prefix_rfl
  | cons element elements ih =>
    intro e he
    rw [List.mem_cons, not_or] at h
    rw [List.scanl_cons, List.mem_cons] at he
    rcases he with rfl | he
    · exact List.prefix_rfl
    · have hstep : done <+: resolve done element := prefix_resolve (Ne.symm h.1)
      exact hstep.trans (ih h.2 e he)

/-- Of a path that passes, no component is `..`, whichever of the two separate. -/
theorem not_mem_components (hsep : ∀ c, separator c = true → isSeparator c = true)
    (h : hasDirectoryTraversal path_str = false) : ".." ∉ components separator path_str := by
  intro hmem
  obtain ⟨w, hw, hparent⟩ := List.mem_map.mp hmem
  rw [← isParent_iff] at hparent
  obtain rfl : w = ['.', '.'] := beq_iff_eq.mp hparent
  -- there is no separator in `..`, so it is a component between both separators too
  have hplain : ∀ c ∈ ['.', '.'], isSeparator c = false := by simp [isSeparator]
  have hfiner := mem_splitOnP_of_finer hsep hplain hw
  have htraversal : ".." ∈ components isSeparator path_str := List.mem_map.mpr ⟨_, hfiner, rfl⟩
  rw [(hasDirectoryTraversal_iff path_str).mpr htraversal] at h
  cases h

theorem isSeparator_of_isSlash {c : Char} (h : isSlash c = true) : isSeparator c = true := by
  rw [isSeparator, ← isSlash, h, Bool.true_or]

/-- A relative path that passes stays in the directory it is taken from. -/
theorem prefix_of_mem_visited (hsep : ∀ c, separator c = true → isSeparator c = true)
    (h : hasDirectoryTraversal path_str = false) (hrelative : isAbsolute path_str = false) :
    ∀ e ∈ visited separator d path_str, d <+: e := by
  intro e he
  rw [visited, start, hrelative] at he
  exact prefix_of_mem_scanl (not_mem_components hsep h) e he

end Traversal

open Traversal

/-- **The traversal check is exact**, and a relative path that passes it never leaves the directory
it is taken from, with `/` alone or with `/` and `\` as separators. -/
theorem traversal_exact (path_str : String) :
    (hasDirectoryTraversal path_str = true ↔ ".." ∈ components isSeparator path_str) ∧
      (hasDirectoryTraversal path_str = false → Traversal.isAbsolute path_str = false → ∀ d : FsPath,
        (∀ e ∈ visited isSlash d path_str, d <+: e) ∧
          ∀ e ∈ visited isSeparator d path_str, d <+: e) := by
  refine ⟨hasDirectoryTraversal_iff path_str, fun h hrelative d => ⟨?_, ?_⟩⟩
  · exact prefix_of_mem_visited (fun c => isSeparator_of_isSlash) h hrelative
  · exact prefix_of_mem_visited (fun c hc => hc) h hrelative

end AxonVex
