import SourceSurvey.Proofs.Disk.Walk
import SourceSurvey.Proofs.Path.Shown
import SourceSurvey.Proofs.Text.Order
import SourceSurvey.Survey

/-!
The files of a survey, as seen from the root of the project: which paths are walked, and in which
order. File systems take any bytes for a name, and a path shows what is no text with replacements,
so only files whose names are texts are told apart by their paths.
-/

namespace SourceSurvey.Survey

variable {disk : Disk} {filter : Filter} {place : List String}

theorem relativePath_def (found : Disk.Found) :
    relativePath found = "/".intercalate found.names := rfl

/-- The paths of the files that a survey walks. -/
def walkedPaths (disk : Disk) (filter : Filter) (place : List String) : List String :=
  (walk disk filter place).map relativePath

/-- A file is walked if names lead to it of which no beginning is skipped and none leads back. -/
theorem mem_walk_iff {found : Disk.Found} :
    found ∈ walk disk filter place ↔ found.names ≠ [] ∧
      (∃ target, disk.lead place found.names = .ok target ∧
        disk.root.at? target = some (.file found.bytes found.modified)) ∧
      (∀ beginning, beginning <+: found.names → beginning ≠ [] →
        filter.skips ("/".intercalate beginning) = false) ∧
      disk.Straight place found.names :=
  Disk.mem_walk_iff

/-- Files are walked in the order of their names. -/
theorem walk_pairwise (disk : Disk) (filter : Filter) (place : List String) :
    (walk disk filter place).Pairwise fun found other => found.names < other.names :=
  Disk.walk_pairwise disk _ place

/-- The path of a record can be taken apart into the names of its file. -/
theorem pieces_relativePath {found : Disk.Found} (h : found ∈ walk disk filter place) :
    Path.pieces (relativePath found) = found.names :=
  Path.pieces_intercalate (Disk.isName_of_mem_walk h)

/-- Files that are walked have the same names if they have the same path. -/
theorem names_eq_of_relativePath_eq {disk' : Disk} {filter' : Filter} {place' : List String}
    {found other : Disk.Found} (h : found ∈ walk disk filter place)
    (hOther : other ∈ walk disk' filter' place') (hPath : relativePath found = relativePath other) :
    found.names = other.names :=
  Path.intercalate_injOn (Disk.isName_of_mem_walk h) (Disk.isName_of_mem_walk hOther) hPath

/-- How paths are ordered: name by name, and names byte by byte. -/
def Before (path other : String) : Prop :=
  (Path.pieces path).map Glob.bytes < (Path.pieces other).map Glob.bytes

theorem Before.asymm {path other : String} (h : Before path other) : ¬Before other path :=
  List.lt_asymm h

/-- Paths in strict order are all different. -/
theorem nodup_of_pairwise_before {paths : List String} (h : paths.Pairwise Before) :
    paths.Nodup := by
  apply h.imp
  intro path other hBefore hSame
  rw [hSame] at hBefore
  exact hBefore.asymm hBefore

/-- If all names are texts, paths are in order, name by name. -/
theorem walkedPaths_pairwise (disk : Disk) (filter : Filter) (place : List String) :
    (walkedPaths disk filter place).Pairwise Before := by
  rw [walkedPaths, List.pairwise_map]
  apply (Disk.walk_pairwise disk _ place).imp_of_mem
  intro found other hFound hOther hLt
  rw [Before, pieces_relativePath hFound, pieces_relativePath hOther]
  exact Glob.map_bytes_lt_map_bytes hLt

theorem walkedPaths_nodup (disk : Disk) (filter : Filter) (place : List String) :
    (walkedPaths disk filter place).Nodup :=
  nodup_of_pairwise_before (walkedPaths_pairwise disk filter place)

/-- The filter without further names and patterns. -/
def plainFilter : Filter := ⟨Filter.defaultNames, Filter.defaultFileNames, []⟩

/-! ### Names of any bytes -/

section Raw

variable {disk : Disk RawText} {filter : Filter} {place : List RawText}
  {found other : Disk.Found RawText}

open PathText (text? shown)

theorem relativePath_raw (found : Disk.Found RawText) :
    relativePath found = "/".intercalate (found.names.map shown) :=
  Path.shown_ofNames found.names

/-- All names on the way to a file are texts. -/
def Readable (found : Disk.Found RawText) : Prop := ∀ name ∈ found.names, (text? name).isSome

instance : DecidablePred Readable := fun _ => inferInstanceAs (Decidable (∀ name ∈ _, _))

/-- With any names the path can be taken apart into what is shown of them. -/
theorem pieces_relativePath_raw (h : found ∈ walk disk filter place) :
    Path.pieces (relativePath found) = found.names.map shown := by
  rw [relativePath_raw]
  exact Path.pieces_intercalate (Path.isName_of_mem_shown (Disk.isName_of_mem_walk h))

/-- Of names that are texts the bytes are those of the path. -/
theorem map_bytes_relativePath (h : found ∈ walk disk filter place) (hReadable : Readable found) :
    (Path.pieces (relativePath found)).map Glob.bytes = found.names.map RawText.bytes := by
  rw [pieces_relativePath_raw h, List.map_map]
  apply List.map_congr_left
  intro name hName
  rw [← RawText.bytes_shown (hReadable name hName), Text.toBytes_eq]
  rfl

theorem map_bytes_lt_of_lt {names others : List RawText} (h : names < others) :
    names.map RawText.bytes < others.map RawText.bytes := by
  induction h with
  | nil => exact List.nil_lt_cons _ _
  | rel hLt => exact List.cons_lt_cons_iff.2 (Or.inl hLt)
  | cons _ ih => exact List.cons_lt_cons_iff.2 (Or.inr ⟨rfl, ih⟩)

/-- Of files whose names are texts the paths are in order, whatever other files there are. -/
theorem readablePaths_pairwise (disk : Disk RawText) (filter : Filter) (place : List RawText) :
    (((walk disk filter place).filter (Readable ·)).map relativePath).Pairwise Before := by
  rw [List.pairwise_map, List.pairwise_filter]
  apply (Disk.walk_pairwise disk _ place).imp_of_mem
  intro found other hFound hOther hLt hReadable hReadable'
  rw [Before, map_bytes_relativePath hFound (of_decide_eq_true hReadable),
    map_bytes_relativePath hOther (of_decide_eq_true hReadable')]
  exact map_bytes_lt_of_lt hLt

theorem readablePaths_nodup (disk : Disk RawText) (filter : Filter) (place : List RawText) :
    (((walk disk filter place).filter (Readable ·)).map relativePath).Nodup :=
  nodup_of_pairwise_before (readablePaths_pairwise disk filter place)

/-- No file is walked twice, even if two files are shown with one path. -/
theorem walkedNames_nodup (disk : Disk RawText) (filter : Filter) (place : List RawText) :
    ((walk disk filter place).map (·.names)).Nodup := by
  rw [List.Nodup, List.pairwise_map]
  apply (Disk.walk_pairwise disk _ place).imp
  intro found other hLt hSame
  rw [hSame] at hLt
  exact List.lt_irrefl _ hLt

/-- A walk finds exactly the files that names lead to from its start, such that no beginning of the
names is skipped and none leads back into a directory that it has passed through. Their names are in
strict order, name by name and byte by byte, so that no file is found twice. The paths of those whose
names are all texts are in the same strict order, and no two of them have the same path. -/
theorem walk_complete_and_ordered (disk : Disk RawText) (filter : Filter) (place : List RawText) :
    (∀ found : Disk.Found RawText, found ∈ walk disk filter place ↔ found.names ≠ [] ∧
      (∃ target, disk.lead place found.names = .ok target ∧
        disk.root.at? target = some (.file found.bytes found.modified)) ∧
      (∀ beginning, beginning <+: found.names → beginning ≠ [] →
        filter.skips (Path.ofNames beginning) = false) ∧
      disk.Straight place found.names) ∧
    (walk disk filter place).Pairwise (fun found other => found.names < other.names) ∧
    ((walk disk filter place).map (·.names)).Nodup ∧
    (((walk disk filter place).filter (Readable ·)).map relativePath).Pairwise Before ∧
    (((walk disk filter place).filter (Readable ·)).map relativePath).Nodup :=
  ⟨fun _ => Disk.mem_walk_iff, Disk.walk_pairwise disk _ place, walkedNames_nodup disk filter place,
    readablePaths_pairwise disk filter place, readablePaths_nodup disk filter place⟩

end Raw

/-- The names of a chain of links, in order. -/
def chainName (n : Nat) : RawText :=
  ⟨[108, UInt8.ofNat (48 + n / 10), UInt8.ofNat (48 + n % 10), 46, 112, 121]⟩

/-- A file behind a chain of 41 links, each of which leads to the next. -/
def diskOfChain : Disk RawText where
  entries := (List.range 41).map (fun n => (chainName n, .link (chainName (n + 1)))) ++
    [(chainName 41, .file [] .epoch)]
  wellFormed := by
    have hNames : ∀ n ∈ List.range 42, Disk.IsName (chainName n) := by decide +kernel
    refine ⟨by decide +kernel, Disk.allWellFormed_iff.2 fun entry hEntry => ?_⟩
    rcases List.mem_append.1 hEntry with hLink | hFile
    · obtain ⟨n, hN, rfl⟩ := List.mem_map.1 hLink
      have hMore : n < 42 := Nat.lt_succ_of_lt (List.mem_range.1 hN)
      exact ⟨hNames n (List.mem_range.2 hMore), trivial⟩
    · cases List.mem_singleton.1 hFile
      exact ⟨hNames 41 (by decide), trivial⟩

/-- Two files whose names differ in a byte that belongs to no character. -/
def diskOfTwins : Disk RawText where
  entries := [(⟨[97, 0xFE, 46, 112, 121]⟩, .file [] .epoch),
    (⟨[97, 0xFF, 46, 112, 121]⟩, .file [] .epoch)]
  wellFormed := ⟨by decide +kernel, by decide +kernel, trivial, by decide +kernel, trivial, trivial⟩

/-- No more than 40 links are followed at once, so the first of 41 links leads to no file although
the file is there. Two files that differ only in a byte of no character are both found, and they have
the same path. -/
theorem walk_chain_and_twins :
    (walk diskOfChain plainFilter []).map (·.names) =
      (List.range 41).map (fun n => [chainName (n + 1)]) ∧
    (walk diskOfTwins plainFilter []).map relativePath = ["a\ufffd.py", "a\ufffd.py"] ∧
    ¬((walk diskOfTwins plainFilter []).map relativePath).Pairwise Before ∧
    ¬((walk diskOfTwins plainFilter []).map relativePath).Nodup := by
  have hPaths : (walk diskOfTwins plainFilter []).map relativePath =
      ["a\ufffd.py", "a\ufffd.py"] := by
    decide +kernel
  have hTwice : ¬["a\ufffd.py", "a\ufffd.py"].Nodup := by decide
  rw [hPaths]
  exact ⟨by decide +kernel, rfl, mt nodup_of_pairwise_before hTwice, hTwice⟩

/-- What is in a directory comes before a longer name that goes on with a hyphen, although the
hyphen is smaller than the slash. -/
example : ["a", "x"].map Glob.bytes < ["a-b"].map Glob.bytes ∧ Glob.bytes "a-b" < Glob.bytes "a/x" := by
  decide

end SourceSurvey.Survey
