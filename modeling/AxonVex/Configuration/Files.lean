import AxonVex.Configuration.Environment

/-!
# Configuration/Files — a configuration in a file

`saveToFile` opens the file, which empties it, and only then serialises the tree and writes the
text; `dump` throws at a string that is not UTF-8, and nobody asks the stream whether it took the
text.  So the two promises of a save, that its `true` can be read back and that its `false` leaves
the file as it was, hold exactly where none of the late steps fails (`Store.savesOrKeeps_iff`).

A `std::string` is read here as the bytes that its characters are the codes of.
-/

namespace AxonVex

namespace Json

/-- The bytes of a `std::string`. -/
def bytes (s : String) : ByteArray := ⟨(s.toList.map fun c => c.toNat.toUInt8).toArray⟩

/-- Every string of the value, and every name of a member, is UTF-8. -/
inductive Utf8 : Json → Prop
  | null : Utf8 null
  | boolean (b : Bool) : Utf8 (boolean b)
  | integer (z : ℤ) : Utf8 (integer z)
  | float (v : ℚ) : Utf8 (float v)
  | string {s : String} (h : (bytes s).IsValidUTF8) : Utf8 (string s)
  | array {xs : List Json} (h : ∀ x ∈ xs, Utf8 x) : Utf8 (array xs)
  | object {ms : List (String × Json)} (hnames : ∀ m ∈ ms, (bytes m.1).IsValidUTF8)
    (h : ∀ m ∈ ms, Utf8 m.2) : Utf8 (object ms)

end Json

namespace Configuration

/-- The texts of the JSON library: `dump(4)` and `dump()`, `none` where they throw, and
`file >> json_data`. -/
structure JsonText where
  dump : Bool → Document → Option (List UInt8)
  parse : List UInt8 → Option Document

/-- What is documented of the text of a document: `dump` throws at strings that are not UTF-8, and
the text, but no shorter part of it from the front, is parsed to the document. -/
structure JsonText.Documented (json : JsonText) (prettyPrint : Bool) (d : Document) : Prop where
  isSome_dump : (json.dump prettyPrint d).isSome ↔ d.1.Utf8
  parse_dump (text : List UInt8) : json.dump prettyPrint d = some text → json.parse text = some d
  parse_take (text : List UInt8) (n : ℕ) : json.dump prettyPrint d = some text →
    n < text.length → json.parse (text.take n) ≠ some d

/-- A file as the process finds it. -/
structure File where
  /-- `none` where there is no file of that name -/
  content : Option (List UInt8)
  /-- an output stream opens -/
  writable : Bool := true
  /-- an input stream opens, if the file is there -/
  readable : Bool := true
  /-- how many bytes the device takes -/
  capacity : ℕ

/-- What `saveToFile` returns, and the file that it leaves. -/
structure Saved where
  returned : Bool
  file : File

namespace Store

variable {json : JsonText} {c : Store} {file : File} {prettyPrint : Bool}

/-- `saveToFile(filename, pretty_print)`; the stream does not report what the device refuses. -/
def saveToFile (json : JsonText) (c : Store) (file : File) (prettyPrint : Bool) : Saved :=
  if file.writable then
    let opened := { file with content := some [] }
    match json.dump prettyPrint c.configData with
    | none => { returned := false, file := opened }
    | some text =>
      { returned := true, file := { opened with content := some (text.take file.capacity) } }
  else { returned := false, file := file }

/-- `loadFromFile(filename, merge_with_existing)`. -/
def loadFromFile (json : JsonText) (c : Store) (file : File) (mergeWithExisting : Bool) :
    Response :=
  if file.readable then
    match file.content.bind json.parse with
    | none => { returned := false, store := c }
    | some jsonData => c.loadFromJson jsonData mergeWithExisting
  else { returned := false, store := c }

/-- A file that is read is in the place of the configuration, if it can be read. -/
theorem loadFromFile_iff {d : Store} {tree : Document} :
    (d.loadFromFile json file false).returned = true ∧
        (d.loadFromFile json file false).store.configData = tree ↔
      file.readable = true ∧ file.content.bind json.parse = some tree := by
  rw [loadFromFile]
  cases file.readable with
  | false => simp
  | true =>
    cases hread : file.content.bind json.parse with
    | none => simp
    | some jsonData => simp [loadFromJson_eq]

/-- A save that returns `true` can be read back, and one that returns `false` leaves the file. -/
structure SavesOrKeeps (json : JsonText) (c : Store) (file : File) (prettyPrint : Bool) : Prop where
  readBack : (c.saveToFile json file prettyPrint).returned = true →
    ∀ d : Store, d.validationEnabled = false →
      (d.loadFromFile json (c.saveToFile json file prettyPrint).file false).returned = true ∧
        (d.loadFromFile json (c.saveToFile json file prettyPrint).file false).store.configData =
          c.configData
  kept : (c.saveToFile json file prettyPrint).returned = false →
    (c.saveToFile json file prettyPrint).file.content = file.content

/-- The text of the configuration is written in full to a file that can be read. -/
def Fits (json : JsonText) (c : Store) (file : File) (prettyPrint : Bool) : Prop :=
  file.readable = true ∧
    ∀ text, json.dump prettyPrint c.configData = some text → text.length ≤ file.capacity

theorem savesOrKeeps_of_not_writable (h : file.writable = false) :
    c.SavesOrKeeps json file prettyPrint := by
  have hsave : c.saveToFile json file prettyPrint = { returned := false, file := file } :=
    if_neg (by rw [h]; exact Bool.noConfusion)
  exact ⟨fun hreturned => absurd hreturned (by rw [hsave]; exact Bool.noConfusion),
    fun _ => by rw [hsave]⟩

/-- A tree that cannot be serialised leaves an empty file. -/
theorem savesOrKeeps_iff_of_throws (hopen : file.writable = true)
    (h : json.dump prettyPrint c.configData = none) :
    c.SavesOrKeeps json file prettyPrint ↔ file.content = some [] := by
  have hsave : c.saveToFile json file prettyPrint =
      { returned := false, file := { file with content := some [] } } := by
    rw [saveToFile, if_pos hopen, h]
  constructor
  · intro hsaves
    have hkept := hsaves.kept (by rw [hsave])
    rw [hsave] at hkept
    exact hkept.symm
  · intro hempty
    exact ⟨fun hreturned => absurd hreturned (by rw [hsave]; exact Bool.noConfusion),
      fun _ => by rw [hsave, hempty]⟩

/-- A text is read back if it was written in full. -/
theorem savesOrKeeps_iff_of_dump (hjson : json.Documented prettyPrint c.configData)
    {text : List UInt8} (hopen : file.writable = true)
    (h : json.dump prettyPrint c.configData = some text) :
    c.SavesOrKeeps json file prettyPrint ↔ c.Fits json file prettyPrint := by
  have hsave : c.saveToFile json file prettyPrint =
      { returned := true, file := { file with content := some (text.take file.capacity) } } := by
    rw [saveToFile, if_pos hopen, h]
  have hread (d : Store) :
      (d.loadFromFile json (c.saveToFile json file prettyPrint).file false).returned = true ∧
          (d.loadFromFile json (c.saveToFile json file prettyPrint).file false).store.configData =
            c.configData ↔
        file.readable = true ∧ json.parse (text.take file.capacity) = some c.configData := by
    rw [loadFromFile_iff, hsave]
    exact Iff.rfl
  constructor
  · intro hsaves
    obtain ⟨hreadable, hparse⟩ :=
      (hread { validationEnabled := false }).mp (hsaves.readBack (by rw [hsave]) _ rfl)
    refine ⟨hreadable, fun text' htext' => ?_⟩
    obtain rfl : text = text' := Option.some.inj (h.symm.trans htext')
    by_contra hlong
    exact hjson.parse_take text file.capacity h (by omega) hparse
  · rintro ⟨hreadable, hfits⟩
    have hparse : json.parse (text.take file.capacity) = some c.configData := by
      rw [List.take_of_length_le (hfits text h)]
      exact hjson.parse_dump text h
    exact ⟨fun _ d _ => (hread d).mpr ⟨hreadable, hparse⟩,
      fun hreturned => absurd hreturned (by rw [hsave]; exact Bool.noConfusion)⟩

/-- **A save can be read back or leaves the file, exactly if** the file does not open, or every
string is UTF-8 and the text is written in full, or some string is not and the file was empty. -/
theorem savesOrKeeps_iff (hjson : json.Documented prettyPrint c.configData) (file : File) :
    c.SavesOrKeeps json file prettyPrint ↔
      file.writable = false ∨
        c.configData.1.Utf8 ∧ c.Fits json file prettyPrint ∨
          ¬ c.configData.1.Utf8 ∧ file.content = some [] := by
  cases hopen : file.writable with
  | false => exact ⟨fun _ => .inl rfl, fun _ => savesOrKeeps_of_not_writable hopen⟩
  | true =>
    cases htext : json.dump prettyPrint c.configData with
    | none =>
      have hutf8 : ¬ c.configData.1.Utf8 := by
        rw [← hjson.isSome_dump, htext]
        exact Bool.noConfusion
      rw [savesOrKeeps_iff_of_throws hopen htext]
      simp [hutf8]
    | some text =>
      have hutf8 : c.configData.1.Utf8 := by
        rw [← hjson.isSome_dump, htext]
        rfl
      rw [savesOrKeeps_iff_of_dump hjson hopen htext]
      simp [hutf8]

/-- `null` in either format. -/
def nullText : JsonText where
  dump _ _ := some [110, 117, 108, 108]
  parse text := if text = [110, 117, 108, 108] then some .null else none

/-- An empty configuration is saved and read back. -/
theorem savesOrKeeps_null :
    ({} : Store).SavesOrKeeps nullText { content := none, capacity := 4096 } true := by
  have hjson : nullText.Documented true ({} : Store).configData := by
    refine ⟨⟨fun _ => .null, fun _ => rfl⟩, ?_, ?_⟩
    · rintro text htext
      exact if_pos (Option.some.inj htext).symm
    · rintro text n htext hn hparse
      have htake : text.take n ≠ [110, 117, 108, 108] := by
        intro heq
        have hlength := congrArg List.length heq
        rw [← Option.some.inj htext] at hn hlength
        simp at hn hlength
        omega
      have hnone : nullText.parse (text.take n) = none := if_neg htake
      rw [hnone] at hparse
      exact absurd hparse (by simp)
  refine (savesOrKeeps_iff hjson _).mpr (.inr (.inl ⟨.null, rfl, ?_⟩))
  rintro text htext
  rw [← Option.some.inj htext]
  decide

/-- A configuration in which the byte `0xff` has been set as a name. -/
def brokenName : Store := (({} : Store).set "name" (some ⟨.string "ÿ", .string "ÿ"⟩) true).store

/-- A library that cannot serialise the configuration. -/
def throwing : JsonText where
  dump _ _ := none
  parse _ := none

/-- A failing save has emptied the file. -/
theorem saveToFile_empties_file :
    let file : File := { content := some [123, 125], capacity := 4096 }
    throwing.Documented true brokenName.configData ∧
      (brokenName.saveToFile throwing file true).returned = false ∧
      (brokenName.saveToFile throwing file true).file.content = some [] ∧
      ¬ brokenName.SavesOrKeeps throwing file true := by
  intro file
  have hutf8 : ¬ brokenName.configData.1.Utf8 := by
    intro h
    have htree : brokenName.configData.1 = .object [("name", .string "ÿ")] := by rfl
    rw [htree] at h
    cases h with
    | object hnames hms =>
      have hstring : (Json.string "ÿ").Utf8 := hms ("name", .string "ÿ") List.mem_cons_self
      cases hstring with
      | string hvalid => exact absurd hvalid (by decide +kernel)
  have hjson : throwing.Documented true brokenName.configData :=
    ⟨⟨fun h => absurd h Bool.noConfusion, fun h => absurd h hutf8⟩,
      fun _ h => absurd h (by simp [throwing]), fun _ _ h => absurd h (by simp [throwing])⟩
  refine ⟨hjson, rfl, rfl, fun hsaves => ?_⟩
  have hempty := (savesOrKeeps_iff_of_throws rfl rfl).mp hsaves
  exact absurd hempty (by decide)

end Store

end Configuration

end AxonVex
