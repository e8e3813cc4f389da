import SourceSurvey.Proofs.Disk.Way
import SourceSurvey.Proofs.Path

/-!
Finding things below a place by path. The path of a directory leads to the directory itself, and a
path of names after it leads where the names lead from there.
-/

namespace SourceSurvey.Disk

variable {disk : Disk} {place names : List String}

/-- A name is a step of its own: neither the current directory nor the one above. -/
theorem stepOf_of_isName {name : String} (h : IsName name) : stepOf name = .name name := by
  rw [stepOf, if_neg h.2.1, if_neg h.2.2.1]

theorem map_stepOf {names : List String} (h : ∀ name ∈ names, IsName name) :
    names.map stepOf = names.map .name :=
  List.map_congr_left fun name hName => stepOf_of_isName (h name hName)

/-- The directories on the way to a directory are directories. -/
theorem IsDirectoryAt.of_append (h : disk.IsDirectoryAt (place ++ names)) :
    disk.IsDirectoryAt place := by
  obtain ⟨entries, hAt⟩ := h
  rw [Entry.at?_append] at hAt
  cases hPlace : disk.root.at? place with
  | none => simp [hPlace] at hAt
  | some e =>
      rw [hPlace, Option.bind_some] at hAt
      cases e with
      | directory all => exact ⟨all, hPlace⟩
      | file => cases names <;> simp [Entry.at?] at hAt
      | link => cases names <;> simp [Entry.at?] at hAt

/-- The names from a directory to one below it are followed without any link. -/
theorem resolve_append {links : Nat} {more : List Path.Component}
    (h : disk.IsDirectoryAt (place ++ names)) :
    resolve disk false links place (names.map .name ++ more) =
      resolve disk false links (place ++ names) more := by
  induction names generalizing place with
  | nil => simp
  | cons name names ih =>
      have hNext : disk.IsDirectoryAt ((place ++ [name]) ++ names) := by simpa using h
      obtain ⟨entries, hAt⟩ := h.of_append
      obtain ⟨below, hBelow⟩ := hNext.of_append
      rw [Entry.at?_concat hAt] at hBelow
      obtain ⟨follow, hFollow⟩ := exists_follow disk false links
      have hRest := ih hNext
      rw [hFollow] at hRest ⊢
      simpa [walkSteps, hAt, hBelow] using hRest

theorem pathOf_def (place : List String) : pathOf place = "/" ++ "/".intercalate place := rfl

theorem steps_def (path : String) :
    steps path = (Path.pieces path).map stepOf ++ if path.endsWith "/" then [.current] else [] := rfl

theorem startOf_def (disk : Disk) (path : String) :
    disk.startOf path = if path.startsWith "/" then [] else disk.home := rfl

theorem locate_def (disk : Disk) (path : String) : disk.locate path =
    if path = "" then .error .notFound
    else resolve disk false maxLinks (disk.startOf path) (steps path) := rfl

/-- The absolute path of a place has the names on the way there as its pieces. -/
theorem pieces_pathOf (h : ∀ name ∈ place, IsName name) : Path.pieces (pathOf place) = place := by
  rw [pathOf_def, Path.pieces_slash, Path.pieces_intercalate h]

/-- What is found at names below a directory. -/
def below? (disk : Disk) (place names : List String) : Option Entry :=
  match disk.lead place names with
  | .ok target => disk.root.at? target
  | .error _ => none

/-- What is below a place is what stands where the names lead from there. -/
theorem below?_eq_some_iff {e : Entry} :
    disk.below? place names = some e ↔
      ∃ target, disk.lead place names = .ok target ∧ disk.root.at? target = some e := by
  rw [below?]
  cases disk.lead place names <;> simp

/-- At a file no names lead back, since a way goes on from directories only. -/
theorem straight_concat_of_file {name : String} {bytes : List UInt8} {modified : Timestamp}
    (h : disk.below? place (names ++ [name]) = some (.file bytes modified)) :
    disk.Straight place (names ++ [name]) ↔ disk.Straight place names := by
  obtain ⟨target, hLead, hFile⟩ := below?_eq_some_iff.1 h
  rw [straight_concat]
  apply and_iff_left
  intro hBack
  obtain ⟨_, earlier, there, ⟨rest, rfl⟩, hEarlier, hThere⟩ := leadsBack_concat.1 hBack
  rw [hLead] at hThere
  cases hThere
  rw [List.append_assoc] at hLead
  obtain ⟨there, entries, hThere, hDirectory⟩ := directory_of_lead_append hLead (by simp)
  rw [hEarlier] at hThere
  cases hThere
  rw [hFile] at hDirectory
  cases hDirectory

/-- The steps along a relative path that has been joined to the path of a place: first to the place,
then on along the names. -/
theorem steps_join_pathOf (hPlace : ∀ name ∈ place, IsName name)
    (hNames : ∀ name ∈ names, IsName name) (hNil : names ≠ []) :
    steps (Path.join (pathOf place) ("/".intercalate names)) = (place ++ names).map .name := by
  obtain ⟨hStart, hEnd⟩ := Path.ends_of_intercalate hNames
  rw [steps_def, if_neg, Path.pieces_join hStart, pieces_pathOf hPlace, Path.pieces_intercalate hNames,
    List.append_nil, map_stepOf]
  · exact List.forall_mem_append.2 ⟨hPlace, hNames⟩
  · rwa [Path.endsWith_join (Path.intercalate_ne_empty hNames hNil)]

/-- A relative path joined to that of a directory finds what is below this directory. The directory
is reached without links, by its own place. -/
theorem find?_join_pathOf (hPlace : disk.IsDirectoryAt place)
    (hNames : ∀ name ∈ names, IsName name) (hNil : names ≠ []) :
    disk.find? (Path.join (pathOf place) ("/".intercalate names)) = disk.below? place names := by
  obtain ⟨entries, hAt⟩ := hPlace
  have hRoot : (Path.join (pathOf place) ("/".intercalate names)).startsWith "/" :=
    Path.startsWith_join (Path.startsWith_slash_iff.2 (by simp [pathOf_def]))
  have hEmpty : Path.join (pathOf place) ("/".intercalate names) ≠ "" := by
    rw [Path.startsWith_slash_iff] at hRoot
    intro hEmpty
    simp [hEmpty] at hRoot
  have hSteps := steps_join_pathOf (disk.wellFormed.at? hAt).2 hNames hNil
  rw [find?, locate_def, if_neg hEmpty, startOf_def, if_pos hRoot, hSteps, List.map_append,
    @resolve_append disk [] place _ _ ⟨entries, hAt⟩, List.nil_append, below?, lead]
  cases resolve disk false maxLinks place (names.map .name) <;> rfl

/-- There is a file at such a path just if the names lead from the directory to one. -/
theorem isFile_join_pathOf (hPlace : disk.IsDirectoryAt place)
    (hNames : ∀ name ∈ names, IsName name) (hNil : names ≠ []) :
    disk.isFile (Path.join (pathOf place) ("/".intercalate names)) ↔
      ∃ bytes modified, disk.below? place names = some (.file bytes modified) := by
  rw [isFile, find?_join_pathOf hPlace hNames hNil]
  cases disk.below? place names with
  | none => simp
  | some e => cases e <;> simp

end SourceSurvey.Disk
