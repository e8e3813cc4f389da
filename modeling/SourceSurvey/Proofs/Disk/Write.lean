import SourceSurvey.Proofs.Disk.Place
import SourceSurvey.Proofs.Disk.Update
import SourceSurvey.Proofs.Except

/-!
Writing a file into a directory, and making the directory. A file is written where its name is in
the directory, unless that is a directory itself; making directories changes no file at all.
-/

namespace SourceSurvey

/-- A path stays relative or absolute when a relative one is joined to it. -/
theorem Path.startsWith_join_iff {base path : String} (h : ¬path.startsWith "/") :
    (join base path).startsWith "/" ↔ base.startsWith "/" := by
  refine ⟨fun hJoin => ?_, startsWith_join⟩
  rw [startsWith_slash_iff] at h hJoin ⊢
  rw [join_def, if_neg (startsWith_slash_iff.not.2 h)] at hJoin
  cases hBase : base.toList with
  | nil =>
      have hEmpty : base = "" := by simpa using hBase
      subst hEmpty
      exact absurd (by simpa using hJoin) h
  | cons c rest =>
      split at hJoin <;> simpa [hBase] using hJoin

namespace Disk

variable {disk disk' : Disk} {places : List (List String)} {directory path name : String}
  {place names q : List String} {bytes : List UInt8} {now : Timestamp}

/-- The place of a directory, where no path at all stands for the place where relative paths begin. -/
def directoryPlace (disk : Disk) (path : String) : Except Failure (List String) :=
  resolve disk false maxLinks (disk.startOf path) ((Path.pieces path).map stepOf)

/-- The path leads to a directory at the place. -/
def LeadsTo (disk : Disk) (path : String) (place : List String) : Prop :=
  disk.directoryPlace path = .ok place ∧ disk.IsDirectoryAt place

/-- The path of a directory leads to its place. -/
theorem LeadsTo.of_locate (h : disk.locate path = .ok place) (hAt : disk.IsDirectoryAt place) :
    disk.LeadsTo path place := by
  refine ⟨?_, hAt⟩
  rw [locate] at h
  split at h
  · cases h
  · rw [steps] at h
    split at h
    · rcases continues_resolve false maxLinks (disk.startOf path) ((Path.pieces path).map stepOf) with
        ⟨there, left, hThere, hMore⟩ | ⟨e, _, hError⟩
      · rw [hMore _ (by simp)] at h
        obtain ⟨follow, hFollow⟩ := exists_follow disk false left
        rw [hFollow, walkSteps] at h
        split at h
        · cases h
          exact hThere
        · cases h
      · rw [hError _ (by simp)] at h
        cases h
    · rwa [List.append_nil] at h

/-- The place that a path leads to is where it is located, unless the path is empty: then it is no
path for the disk, and the current directory for a join. -/
theorem LeadsTo.locate_eq (h : disk.LeadsTo path place) (hPath : path ≠ "") :
    disk.locate path = .ok place := by
  obtain ⟨hPlace, entries, hAt⟩ := h
  rw [directoryPlace] at hPlace
  rw [locate, if_neg (by simpa using hPath), steps]
  split
  · rcases continues_resolve false maxLinks (disk.startOf path) ((Path.pieces path).map stepOf) with
      ⟨there, left, hThere, hMore⟩ | ⟨e, hError, _⟩
    · cases hThere.symm.trans hPlace
      obtain ⟨follow, hFollow⟩ := exists_follow disk false left
      rw [hMore _ (by simp), hFollow]
      simp [walkSteps, hAt]
    · cases hError.symm.trans hPlace
  · rwa [List.append_nil]

theorem LeadsTo.isDirectory (h : disk.LeadsTo path place) (hPath : path ≠ "") :
    disk.isDirectory path = true := by
  obtain ⟨entries, hAt⟩ := h.2
  rw [Disk.isDirectory, find?, h.locate_eq hPath]
  simp only [hAt]

/-- The path of a directory leads to some place. -/
theorem exists_leadsTo_of_isDirectory (h : disk.isDirectory path = true) :
    ∃ place, disk.LeadsTo path place := by
  obtain ⟨place, hLocate, hAt⟩ := exists_locate_of_isDirectory h
  exact ⟨place, .of_locate hLocate hAt⟩

theorem Changed.startOf_eq (h : Changed places disk disk') (path : String) :
    disk'.startOf path = disk.startOf path := by
  rw [startOf, startOf, h.home]

/-- Where a path leads does not change with the files. -/
theorem Changed.leadsTo (h : Changed places disk disk') (hLeads : disk.LeadsTo path place) :
    disk'.LeadsTo path place := by
  refine ⟨?_, h.isDirectoryAt hLeads.2⟩
  rw [directoryPlace, h.startOf_eq]
  exact h.resolve_eq hLeads.1 hLeads.2

/-! ### Names in a directory -/

theorem not_startsWith_of_isName (h : IsName name) : ¬name.startsWith "/" := by
  rw [Path.startsWith_slash_iff]
  exact fun hHead => h.slash_not_mem (List.mem_of_head? hHead)

theorem not_endsWith_join (h : IsName name) : ¬(Path.join directory name).endsWith "/" := by
  rw [Path.endsWith_join h.1, Path.endsWith_slash_iff]
  exact fun hLast => h.slash_not_mem (List.mem_of_getLast? hLast)

/-- A name joined to a path is its last piece. -/
theorem pieces_join_name (h : IsName name) :
    Path.pieces (Path.join directory name) = Path.pieces directory ++ [name] := by
  rw [Path.pieces_join (not_startsWith_of_isName h), Path.pieces_of_isName h]

/-- The steps along a path and on to a name in that directory. A step for the slash at the end of
the path is gone. -/
theorem steps_join (h : IsName name) :
    steps (Path.join directory name) = (Path.pieces directory).map stepOf ++ [.name name] := by
  rw [steps_def, if_neg (not_endsWith_join h), pieces_join_name h, List.append_nil, List.map_append,
    List.map_singleton, stepOf_of_isName h]

/-- The joined path starts where the path did. -/
theorem startOf_join (h : IsName name) :
    disk.startOf (Path.join directory name) = disk.startOf directory := by
  rw [startOf_def, startOf_def]
  simp only [Path.startsWith_join_iff (not_startsWith_of_isName h)]

theorem join_ne_empty (h : IsName name) : Path.join directory name ≠ "" := by
  intro hEmpty
  have hPieces := @pieces_join_name directory name h
  rw [hEmpty] at hPieces
  exact absurd hPieces.symm (by simp [Path.pieces_def, Path.split])

theorem isEmpty_join (h : IsName name) : (Path.join directory name).isEmpty = false := by
  rw [Bool.eq_false_iff, ne_eq, String.isEmpty_iff]
  exact join_ne_empty h

/-- What a name in a directory leads to, if that is there and no link. -/
theorem LeadsTo.resolve_join {new : Bool} {e : Entry} (h : disk.LeadsTo directory place)
    (hName : IsName name) (hAt : disk.root.at? (place ++ [name]) = some e) (hLink : ¬e.IsLink) :
    resolve disk new maxLinks (disk.startOf (Path.join directory name))
      (steps (Path.join directory name)) = .ok (place ++ [name]) := by
  obtain ⟨hPlace, entries, hDirectory⟩ := h
  rw [Entry.at?_concat hDirectory] at hAt
  rw [steps_join hName, startOf_join hName]
  exact resolve_concat hPlace hDirectory hAt hLink

/-- A name that is not in the directory yet resolves to its place there. -/
theorem LeadsTo.resolve_new_join (h : disk.LeadsTo directory place) (hName : IsName name)
    (hAt : disk.root.at? (place ++ [name]) = none) :
    resolve disk true maxLinks (disk.startOf (Path.join directory name))
      (steps (Path.join directory name)) = .ok (place ++ [name]) := by
  obtain ⟨hPlace, entries, hDirectory⟩ := h
  rw [Entry.at?_concat hDirectory] at hAt
  rw [steps_join hName, startOf_join hName]
  exact resolve_new_concat hPlace hDirectory hAt

/-- A name in the directory is located there, unless it is a link. -/
theorem LeadsTo.locate_join {e : Entry} (h : disk.LeadsTo directory place) (hName : IsName name)
    (hAt : disk.root.at? (place ++ [name]) = some e) (hLink : ¬e.IsLink) :
    disk.locate (Path.join directory name) = .ok (place ++ [name]) := by
  rw [locate_def, if_neg (join_ne_empty hName)]
  exact h.resolve_join hName hAt hLink

/-- What a directory has under a name is found by joining the name to the path of the directory. -/
theorem LeadsTo.find?_join {e : Entry} (h : disk.LeadsTo directory place) (hName : IsName name)
    (hAt : disk.root.at? (place ++ [name]) = some e) (hLink : ¬e.IsLink) :
    disk.find? (Path.join directory name) = some e := by
  rw [find?, h.locate_join hName hAt hLink]
  exact hAt

/-- What a directory does not have is not found. -/
theorem LeadsTo.find?_join_eq_none (h : disk.LeadsTo directory place) (hName : IsName name)
    (hAt : disk.root.at? (place ++ [name]) = none) :
    disk.find? (Path.join directory name) = none := by
  obtain ⟨hPlace, entries, hDirectory⟩ := h
  rw [Entry.at?_concat hDirectory] at hAt
  have hMissing : disk.locate (Path.join directory name) = .error .notFound := by
    rw [locate_def, if_neg (join_ne_empty hName), steps_join hName, startOf_join hName]
    rcases continues_resolve false maxLinks (disk.startOf directory)
      ((Path.pieces directory).map stepOf) with ⟨there, left, hThere, hMore⟩ | ⟨_, hError, _⟩
    · cases hThere.symm.trans hPlace
      obtain ⟨follow, hFollow⟩ := exists_follow disk false left
      simp [hMore, hFollow, walkSteps, hDirectory, hAt]
    · cases hError.symm.trans hPlace
  rw [find?, hMissing]

/-- The path names a link, wherever that leads. -/
def isLink (disk : Disk) (path : String) : Bool :=
  match disk.placeOf path with
  | .ok place =>
    match disk.root.at? place with
    | some (.link _) => true
    | _ => false
  | .error _ => false

/-- A link in a directory is recognised without being followed. -/
theorem LeadsTo.isLink_join (h : disk.LeadsTo directory place) (hName : IsName name)
    {target : String} (hAt : disk.root.at? (place ++ [name]) = some (.link target)) :
    disk.isLink (Path.join directory name) = true := by
  have hPlace : disk.placeOf (Path.join directory name) = .ok (place ++ [name]) := by
    rw [placeOf, pieces_join_name hName, startOf_join hName, List.dropLast_concat,
      List.getLast?_concat, ← directoryPlace, h.1]
    rfl
  rw [isLink, hPlace]
  simp only [hAt]

/-! ### Writing a file -/

/-- A file is written where its path resolves to, unless a directory is in the way. -/
theorem write_join_of_resolve {target : List String} (hName : IsName name)
    (h : resolve disk true maxLinks (disk.startOf (Path.join directory name))
      (steps (Path.join directory name)) = .ok target) :
    disk.write (Path.join directory name) bytes now =
      match disk.root.at? target with
      | some (.directory _) => .error .isDirectory
      | _ => .ok (disk.put target (.file bytes now) trivial) := by
  rw [write, isEmpty_join hName, if_neg (not_endsWith_join hName), h]
  rfl

/-- A file is written at its name in a directory, unless there is a directory. -/
theorem LeadsTo.write_join (h : disk.LeadsTo directory place) (hName : IsName name)
    (hLink : ∀ target, disk.root.at? (place ++ [name]) ≠ some (.link target)) :
    disk.IsDirectoryAt (place ++ [name]) ∧
      disk.write (Path.join directory name) bytes now = .error .isDirectory ∨
    ¬disk.IsDirectoryAt (place ++ [name]) ∧
      disk.write (Path.join directory name) bytes now =
        .ok (disk.put (place ++ [name]) (.file bytes now) trivial) := by
  cases hAt : disk.root.at? (place ++ [name]) with
  | none =>
      refine .inr ⟨by simp [IsDirectoryAt, hAt], ?_⟩
      rw [write_join_of_resolve hName (h.resolve_new_join hName hAt), hAt]
  | some e =>
      cases e with
      | link target => exact absurd hAt (hLink target)
      | file =>
          refine .inr ⟨by simp [IsDirectoryAt, hAt], ?_⟩
          rw [write_join_of_resolve hName (h.resolve_join hName hAt id), hAt]
      | directory entries =>
          refine .inl ⟨⟨entries, hAt⟩, ?_⟩
          rw [write_join_of_resolve hName (h.resolve_join hName hAt id), hAt]

/-- A file can only be written into a directory that is there. -/
theorem exists_leadsTo_of_write_join (hName : IsName name)
    (h : disk.write (Path.join directory name) bytes now = .ok disk') :
    ∃ place, disk.LeadsTo directory place := by
  rw [write, isEmpty_join hName, if_neg (not_endsWith_join hName)] at h
  obtain ⟨target, hTarget, _⟩ := Except.bind_eq_ok_iff.1 h
  rw [steps_join hName, startOf_join hName] at hTarget
  rcases continues_resolve true maxLinks (disk.startOf directory)
    ((Path.pieces directory).map stepOf) with ⟨there, left, hThere, hMore⟩ | ⟨e, _, hError⟩
  · rw [hMore _ (by simp)] at hTarget
    obtain ⟨follow, hFollow⟩ := exists_follow disk true left
    rw [hFollow, walkSteps] at hTarget
    split at hTarget
    · rename_i entries hAt
      exact ⟨there, hThere, entries, hAt⟩
    · cases hTarget
  · rw [hError _ (by simp)] at hTarget
    cases hTarget

/-! ### Writing through links -/

def IsLinkAt (disk : Disk) (place : List String) : Prop :=
  ∃ target, disk.root.at? place = some (.link target)

theorem IsDirectoryAt.not_isLinkAt (h : disk.IsDirectoryAt place) : ¬disk.IsLinkAt place := by
  rintro ⟨target, hLink⟩
  obtain ⟨entries, hAt⟩ := h
  cases hAt.symm.trans hLink

/-- Unless there is a link, a joined path finds what stands at the joined place. -/
theorem LeadsTo.find?_join_eq_at? (h : disk.LeadsTo directory place) (hName : IsName name)
    (hLink : ¬disk.IsLinkAt (place ++ [name])) :
    disk.find? (Path.join directory name) = disk.root.at? (place ++ [name]) := by
  cases hAt : disk.root.at? (place ++ [name]) with
  | none => exact h.find?_join_eq_none hName hAt
  | some e =>
      apply h.find?_join hName hAt
      cases e with
      | link target => exact absurd ⟨target, hAt⟩ hLink
      | file => exact id
      | directory => exact id

theorem IsDirectoryAt.dropLast (h : disk.IsDirectoryAt place) : disk.IsDirectoryAt place.dropLast := by
  cases place using List.reverseRecOn with
  | nil => exact h
  | append_singleton before name =>
      rw [List.dropLast_concat]
      exact h.of_append

theorem isDirectoryAt_root (disk : Disk) : disk.IsDirectoryAt [] := ⟨disk.entries, rfl⟩

/-- Steps never end at a link, since they are followed behind it. -/
theorem not_isLinkAt_of_walkSteps {new : Bool} {here there : List String}
    {follow : List String → List Path.Component → Except Failure (List String)}
    {steps : List Path.Component}
    (hFollow : ∀ here steps, disk.IsDirectoryAt here → follow here steps = .ok there →
      ¬disk.IsLinkAt there)
    (hHere : ¬disk.IsLinkAt here) (h : walkSteps disk new follow here steps = .ok there) :
    ¬disk.IsLinkAt there := by
  induction steps generalizing here with
  | nil =>
      cases h
      exact hHere
  | cons step rest ih =>
      rw [walkSteps] at h
      split at h
      · rename_i entries hAt
        have hDirectory : disk.IsDirectoryAt here := ⟨entries, hAt⟩
        cases step with
        | root => exact ih (isDirectoryAt_root disk).not_isLinkAt h
        | current => exact ih hHere h
        | parent => exact ih hDirectory.dropLast.not_isLinkAt h
        | name name =>
            have hName := Entry.at?_concat hAt name
            cases hLookup : entries.lookup name with
            | none =>
                simp only [hLookup] at h
                split at h
                · cases h
                  simp [IsLinkAt, hName, hLookup]
                · cases h
            | some below =>
                cases below with
                | link target =>
                    simp only [hLookup] at h
                    refine hFollow _ _ ?_ h
                    split
                    · exact isDirectoryAt_root disk
                    · exact hDirectory
                | file =>
                    simp only [hLookup] at h
                    exact ih (by simp [IsLinkAt, hName, hLookup]) h
                | directory =>
                    simp only [hLookup] at h
                    exact ih (by simp [IsLinkAt, hName, hLookup]) h
      · cases h

/-- No path leads to a link, since links are followed. -/
theorem not_isLinkAt_of_resolve {new : Bool} {links : Nat} {here there : List String}
    {steps : List Path.Component} (hHere : disk.IsDirectoryAt here)
    (h : resolve disk new links here steps = .ok there) : ¬disk.IsLinkAt there := by
  induction links generalizing here steps with
  | zero => exact not_isLinkAt_of_walkSteps (fun _ _ _ hFails => by cases hFails) hHere.not_isLinkAt h
  | succ links ih =>
      exact not_isLinkAt_of_walkSteps (fun _ _ hDirectory hNext => ih hDirectory hNext)
        hHere.not_isLinkAt h

/-- Where steps can be taken, there is a directory. -/
theorem isDirectoryAt_of_resolve {new : Bool} {links : Nat} {here there : List String}
    {steps : List Path.Component} (hSteps : steps ≠ [])
    (h : resolve disk new links here steps = .ok there) : disk.IsDirectoryAt here := by
  obtain ⟨step, rest, rfl⟩ := List.exists_cons_of_ne_nil hSteps
  obtain ⟨follow, hFollow⟩ := exists_follow disk new links
  rw [hFollow, walkSteps] at h
  split at h
  · rename_i entries hAt
    exact ⟨entries, hAt⟩
  · cases h

/-- Whatever a name in a directory stands for, writing a file there changes one place, which held a
file or nothing. -/
theorem exists_changed_of_write_join (hName : IsName name)
    (h : disk.write (Path.join directory name) bytes now = .ok disk') :
    ∃ target, Changed [target] disk disk' := by
  have hWrite := h
  rw [write, isEmpty_join hName, if_neg (not_endsWith_join hName)] at h
  obtain ⟨target, hTarget, _⟩ := Except.bind_eq_ok_iff.1 h
  have hStart := isDirectoryAt_of_resolve (by simp [steps_join hName]) hTarget
  have hLink := not_isLinkAt_of_resolve hStart hTarget
  have hPut (hOld : ∀ e, disk.root.at? target = some e → ∃ bytes modified, e = .file bytes modified) :
      Changed [target] disk (disk.put target (.file bytes now) trivial) := by
    refine changed_put ?_ _ (Entry.isBare_file bytes now) hOld
    rintro rfl
    obtain ⟨_, _, hFile⟩ := hOld _ rfl
    cases hFile
  rw [write_join_of_resolve hName hTarget] at hWrite
  cases hAt : disk.root.at? target with
  | none =>
      simp only [hAt] at hWrite
      cases hWrite
      exact ⟨target, hPut (by simp [hAt])⟩
  | some e =>
      cases e with
      | link text => exact absurd ⟨text, hAt⟩ hLink
      | directory entries =>
          simp only [hAt] at hWrite
          cases hWrite
      | file =>
          simp only [hAt] at hWrite
          cases hWrite
          exact ⟨target, hPut (by simp [hAt])⟩

/-! ### Making directories -/

/-- A directory that can be made is there afterwards. -/
theorem of_makeDirectory_eq_ok (h : disk.makeDirectory path = .ok disk') :
    Changed [] disk disk' ∧ ∃ place, disk'.LeadsTo path place := by
  obtain ⟨parent, hParent, h⟩ := Except.bind_eq_ok_iff.1 h
  split at h
  · rename_i entries name hAt hLast
    split at h
    · cases h
    · rename_i hFree
      simp only [Bool.or_eq_true, Bool.not_eq_true', decide_eq_false_iff_not, not_or,
        Bool.not_eq_true, Option.isSome_eq_false_iff, Option.isNone_iff_eq_none, not_not] at hFree
      obtain ⟨hLookup, hName⟩ := hFree
      cases h
      have hNil : parent ++ [name] ≠ [] := by simp
      have hChanged := changed_put_empty hNil ((Entry.at?_concat hAt name).trans hLookup)
      have hMade := at?_put_concat hName hAt Entry.wellFormed_empty
      refine ⟨hChanged, parent ++ [name], ?_, [], hMade⟩
      obtain ⟨before, hPieces⟩ := List.getLast?_eq_some_iff.1 hLast
      obtain ⟨entries', hAt'⟩ := hChanged.isDirectoryAt ⟨entries, hAt⟩
      rw [hPieces, List.dropLast_concat] at hParent
      rw [directoryPlace, hPieces, List.map_append, List.map_singleton, stepOf_of_isName hName,
        hChanged.startOf_eq]
      rw [Entry.at?_concat hAt'] at hMade
      exact resolve_concat (hChanged.resolve_eq hParent ⟨entries, hAt⟩) hAt' hMade id
  · split at h <;> cases h
  · cases h

/-- A directory that is there cannot be made once more. -/
theorem LeadsTo.makeDirectory_eq (h : disk.LeadsTo path place) (hPath : path ≠ "") :
    disk.makeDirectory path = .error .alreadyExists := by
  obtain ⟨hPlace, entries, hAt⟩ := h
  rw [directoryPlace] at hPlace
  rw [makeDirectory]
  cases hLast : (Path.pieces path).getLast? with
  | none =>
      have hPieces := List.getLast?_eq_none_iff.1 hLast
      rw [hPieces] at hPlace ⊢
      rw [List.dropLast_nil, hPlace]
      simp [bind, Except.bind, hAt, hPath, throw, throwThe, MonadExceptOf.throw]
  | some name =>
      obtain ⟨before, hPieces⟩ := List.getLast?_eq_some_iff.1 hLast
      rw [hPieces, List.map_append, List.map_singleton] at hPlace
      rw [hPieces, List.dropLast_concat]
      rcases continues_resolve false maxLinks (disk.startOf path) (before.map stepOf) with
        ⟨parent, left, hParent, hMore⟩ | ⟨e, _, hError⟩
      · rw [hMore _ (by simp)] at hPlace
        obtain ⟨follow, hFollow⟩ := exists_follow disk false left
        rw [hFollow, walkSteps] at hPlace
        split at hPlace
        · rename_i others hOthers
          have hTaken : ((others.lookup name).isSome || !decide (IsName name)) = true := by
            rw [Bool.or_eq_true, Bool.not_eq_true', decide_eq_false_iff_not]
            by_contra hFree
            rw [not_or, not_not, Option.not_isSome_iff_eq_none] at hFree
            obtain ⟨hLookup, hName⟩ := hFree
            simp only [stepOf_of_isName hName, hLookup] at hPlace
            simp at hPlace
          rw [hParent]
          simp only [bind, Except.bind, hOthers, hTaken, if_true]
          rfl
        · cases hPlace
      · rw [hError _ (by simp)] at hPlace
        cases hPlace

/-- To make directories changes no files. -/
theorem changed_makeAll (disk : Disk) (paths : List String) :
    Changed [] disk (disk.makeAll paths).1 := by
  fun_induction makeAll disk paths with
  | case1 => exact .refl _
  | case2 path above disk' hMade => exact (of_makeDirectory_eq_ok hMade).1
  | case3 path above hMissing disk' e hAbove ih =>
      rw [hAbove] at ih
      exact ih
  | case4 path above hMissing disk' hAbove disk'' hMade ih =>
      rw [hAbove] at ih
      exact ih.trans (of_makeDirectory_eq_ok hMade).1
  | case5 path above hMissing disk' hAbove e hFails ih =>
      rw [hAbove] at ih
      exact ih
  | case6 => exact .refl _

/-- When directories could be made, the path of the last leads to one. -/
theorem leadsTo_of_makeAll {above : List String} (h : (disk.makeAll (path :: above)).2 = .ok ()) :
    ∃ place, (disk.makeAll (path :: above)).1.LeadsTo path place := by
  have hThere {disk : Disk} {e : Failure} (h : (if disk.isDirectory path then Except.ok ()
      else Except.error e) = .ok ()) : ∃ place, disk.LeadsTo path place := by
    split at h
    · rename_i hDirectory
      exact exists_leadsTo_of_isDirectory hDirectory
    · cases h
  cases hMake : disk.makeDirectory path with
  | ok disk' =>
      simp only [makeAll, hMake]
      exact (of_makeDirectory_eq_ok hMake).2
  | error e =>
      by_cases hMissing : e = .notFound
      · subst hMissing
        rcases hAbove : makeAll disk above with ⟨disk', _ | _⟩
        · simp [makeAll, hMake, hAbove] at h
        · cases hAgain : disk'.makeDirectory path with
          | ok disk'' =>
              simp only [makeAll, hMake, hAbove, hAgain]
              exact (of_makeDirectory_eq_ok hAgain).2
          | error e =>
              simp only [makeAll, hMake, hAbove, hAgain] at h ⊢
              exact hThere h
      · simp only [makeAll, hMake] at h ⊢
        exact hThere h

/-- Making directories changes no file, whether they can be made or not. -/
theorem changed_ensureDirectory (disk : Disk) (path : String) :
    Changed [] disk (disk.ensureDirectory path).1 := by
  rw [ensureDirectory]
  split
  · exact .refl disk
  · exact changed_makeAll disk _

/-- A directory that exists is left as it is. -/
theorem ensureDirectory_of_isDirectory (h : disk.isDirectory path = true) :
    disk.ensureDirectory path = (disk, .ok ()) := by
  obtain ⟨place, hLeads⟩ := exists_leadsTo_of_isDirectory h
  rw [ensureDirectory]
  split
  · rfl
  · rename_i hNonempty
    have hMake := hLeads.makeDirectory_eq (by simpa using hNonempty)
    simp only [makeAll, hMake, h, if_true]

/-- A directory that can be made, or is there, is there afterwards. -/
theorem leadsTo_of_ensureDirectory (h : disk.ensureDirectory path = (disk', .ok ()))
    (hPath : path ≠ "") : ∃ place, disk'.LeadsTo path place := by
  have hNonempty : path.isEmpty = false := by simpa using hPath
  simp only [ensureDirectory, hNonempty, Bool.false_eq_true, if_false] at h
  have hThere := @leadsTo_of_makeAll disk path (Path.ancestors path) (by rw [h])
  rwa [h] at hThere

end Disk

end SourceSurvey
