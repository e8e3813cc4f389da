import SourceSurvey.Proofs.Disk.Write
import SourceSurvey.Report.Artifacts

/-!
What the files of a survey do to a disk. They are written one after the other; whether all of them
are written or one fails, those before it have their texts and nothing else has changed.
-/

namespace SourceSurvey.Report

open Disk (IsName)

variable {disk disk' : Disk} {directory : String} {place : List String} {now : Timestamp}
  {files : List (String × String)}

/-- These files, and no others, have been written into the directory at a place. -/
structure WrittenAt (place : List String) (now : Timestamp) (files : List (String × String))
    (disk disk' : Disk) : Prop where
  changed : Disk.Changed (files.map fun file => place ++ [file.1]) disk disk'
  contents : ∀ file ∈ files,
    disk'.root.at? (place ++ [file.1]) = some (.file (Text.toBytes file.2) now)

theorem WrittenAt.nil (disk : Disk) : WrittenAt place now [] disk disk :=
  ⟨.refl disk, by simp⟩

/-- One more file, written before the others, keeps its text if they have other names. -/
theorem WrittenAt.cons {disk'' : Disk} {name text : String}
    (hFirst : WrittenAt place now [(name, text)] disk disk')
    (hRest : WrittenAt place now files disk' disk'') (hOther : name ∉ files.map (·.1)) :
    WrittenAt place now ((name, text) :: files) disk disk'' := by
  refine ⟨hFirst.changed.trans hRest.changed, List.forall_mem_cons.2 ⟨?_, hRest.contents⟩⟩
  have hElsewhere : place ++ [name] ∉ files.map fun file => place ++ [file.1] := by
    simpa using hOther
  exact (hRest.changed.at?_eq_some_iff hElsewhere id).2 (hFirst.contents _ List.mem_cons_self)

/-- Writing makes no links. -/
theorem WrittenAt.not_link {q : List String} (h : WrittenAt place now files disk disk')
    (hOld : ∀ target, disk.root.at? q ≠ some (.link target)) (target : String) :
    disk'.root.at? q ≠ some (.link target) := by
  intro hLink
  by_cases hPlaces : q ∈ files.map fun file => place ++ [file.1]
  · obtain ⟨file, hFile, rfl⟩ := List.mem_map.1 hPlaces
    cases (h.contents file hFile).symm.trans hLink
  · exact hOld target ((h.changed.at?_eq_some_iff hPlaces id).1 hLink)

/-- To write one file where there is neither a link nor a directory. -/
theorem writtenAt_put {name text : String} (hName : IsName name) (hAt : disk.IsDirectoryAt place)
    (hLink : ∀ target, disk.root.at? (place ++ [name]) ≠ some (.link target))
    (hFree : ¬disk.IsDirectoryAt (place ++ [name])) :
    WrittenAt place now [(name, text)] disk
      (disk.put (place ++ [name]) (.file (Text.toBytes text) now) trivial) := by
  obtain ⟨entries, hAt⟩ := hAt
  refine ⟨Disk.changed_put (by simp) _ (Disk.Entry.isBare_file _ _) ?_, ?_⟩
  · intro e hOld
    cases e with
    | file bytes modified => exact ⟨bytes, modified, rfl⟩
    | link target => exact absurd hOld (hLink target)
    | directory below => exact absurd ⟨below, hOld⟩ hFree
  · simpa using Disk.at?_put_concat hName hAt _

/-- Nothing is written behind a file that could not be. -/
theorem writeFiles_cons_of_error {name text : String} {cause : Disk.Failure}
    (h : disk.write (Path.join directory name) (Text.toBytes text) now = .error cause)
    (rest : List (String × String)) :
    writeFiles directory now ((name, text) :: rest) disk =
      (disk, .error (.writing (Path.join directory name) cause)) := by
  simp only [writeFiles, h]

/-- A file that has been written is reported with the others. -/
theorem writeFiles_cons_of_ok {name text : String}
    (h : disk.write (Path.join directory name) (Text.toBytes text) now = .ok disk')
    (rest : List (String × String)) :
    writeFiles directory now ((name, text) :: rest) disk =
      ((writeFiles directory now rest disk').1,
        (writeFiles directory now rest disk').2.map (Path.join directory name :: ·)) := by
  simp only [writeFiles, h]
  split <;> simp_all [Except.map]

/-- Writing stops before the first file in whose place there is a directory. -/
theorem writeFiles_writtenAt (h : disk.LeadsTo directory place)
    (hNames : ∀ file ∈ files, IsName file.1) (hDistinct : (files.map (·.1)).Nodup)
    (hLinks : ∀ file ∈ files, ∀ target,
      disk.root.at? (place ++ [file.1]) ≠ some (.link target)) :
    ∃ written, WrittenAt place now written disk (writeFiles directory now files disk).1 ∧
      (written = files ∧ (writeFiles directory now files disk).2 =
        .ok (files.map fun file => Path.join directory file.1) ∨
      ∃ file rest, files = written ++ file :: rest ∧
        (writeFiles directory now files disk).2 =
          .error (.writing (Path.join directory file.1) .isDirectory) ∧
        (writeFiles directory now files disk).1.IsDirectoryAt (place ++ [file.1])) := by
  induction files generalizing disk with
  | nil => exact ⟨[], .nil disk, .inl ⟨rfl, rfl⟩⟩
  | cons file rest ih =>
      obtain ⟨name, text⟩ := file
      obtain ⟨hName, hNames⟩ := List.forall_mem_cons.1 hNames
      obtain ⟨hLink, hLinks⟩ := List.forall_mem_cons.1 hLinks
      obtain ⟨hOther, hDistinct⟩ := List.nodup_cons.1 hDistinct
      rcases @Disk.LeadsTo.write_join _ _ _ _ (Text.toBytes text) now h hName hLink with
        ⟨hDirectory, hFails⟩ | ⟨hFree, hWrite⟩
      · rw [writeFiles_cons_of_error hFails]
        exact ⟨[], .nil disk, .inr ⟨(name, text), rest, rfl, rfl, hDirectory⟩⟩
      · have hFirst := @writtenAt_put _ _ now _ text hName h.2 hLink hFree
        generalize disk.put (place ++ [name]) (.file (Text.toBytes text) now) trivial = between
          at hWrite hFirst
        obtain ⟨written, hWritten, hEnd⟩ :=
          ih (hFirst.changed.leadsTo h) hNames hDistinct
            fun file hFile => hFirst.not_link (hLinks file hFile)
        rw [writeFiles_cons_of_ok hWrite]
        rcases hEnd with ⟨hAll, hOk⟩ | ⟨file, behind, hRest, hError, hDirectory⟩
        · subst hAll
          refine ⟨(name, text) :: written, hFirst.cons hWritten hOther, .inl ⟨rfl, ?_⟩⟩
          rw [hOk]
          rfl
        · have hNew : name ∉ written.map (·.1) := by
            intro hMem
            apply hOther
            rw [hRest, List.map_append]
            exact List.mem_append_left _ hMem
          refine ⟨(name, text) :: written, hFirst.cons hWritten hNew,
            .inr ⟨file, behind, by rw [hRest]; rfl, ?_, hDirectory⟩⟩
          rw [hError]
          rfl

/-- Where there is no directory, the first file cannot be written. -/
theorem writeFiles_of_not_leadsTo (h : ¬∃ place, disk.LeadsTo directory place)
    {file : String × String} (hName : IsName file.1) (rest : List (String × String)) :
    ∃ cause, writeFiles directory now (file :: rest) disk =
      (disk, .error (.writing (Path.join directory file.1) cause)) := by
  cases hWrite : disk.write (Path.join directory file.1) (Text.toBytes file.2) now with
  | ok disk' => exact absurd (Disk.exists_leadsTo_of_write_join hName hWrite) h
  | error cause => exact ⟨cause, writeFiles_cons_of_error hWrite rest⟩

/-- Files are written at one place each, wherever links lead, so that a path which has led to a
directory leads there still. -/
theorem leadsTo_writeFiles {path : String} {q : List String} (h : disk.LeadsTo path q)
    (hNames : ∀ file ∈ files, IsName file.1) :
    (writeFiles directory now files disk).1.LeadsTo path q := by
  induction files generalizing disk with
  | nil => exact h
  | cons file rest ih =>
      obtain ⟨hName, hNames⟩ := List.forall_mem_cons.1 hNames
      cases hWrite : disk.write (Path.join directory file.1) (Text.toBytes file.2) now with
      | error cause =>
          rw [writeFiles_cons_of_error hWrite]
          exact h
      | ok between =>
          obtain ⟨target, hChanged⟩ := Disk.exists_changed_of_write_join hName hWrite
          rw [writeFiles_cons_of_ok hWrite]
          exact ih (hChanged.leadsTo h) hNames

/-! ### The directory and all files -/

/-- The files of a survey are all four or, for the summary alone, the last of them. -/
theorem artifacts_names (survey : Survey) (summaryOnly : Bool) :
    (artifacts survey summaryOnly).map (·.1) <:+ artifactNames := by
  cases summaryOnly
  · exact List.suffix_rfl
  · exact ⟨artifactNames.take 3, rfl⟩

theorem artifacts_ne_nil (survey : Survey) (summaryOnly : Bool) :
    artifacts survey summaryOnly ≠ [] :=
  List.append_ne_nil_of_right_ne_nil _ (List.cons_ne_nil _ _)

theorem isName_of_mem_artifactNames {name : String} (h : name ∈ artifactNames) : IsName name := by
  have hAll : ∀ name ∈ artifactNames, IsName name := by decide
  exact hAll name h

/-- Each file is written into the directory itself, under a name. -/
theorem isName_of_mem_artifacts {survey : Survey} {summaryOnly : Bool} {file : String × String}
    (h : file ∈ artifacts survey summaryOnly) : IsName file.1 :=
  isName_of_mem_artifactNames ((artifacts_names survey summaryOnly).subset (List.mem_map_of_mem h))

/-- Of a disk, these files in a directory have been written and nothing else has changed, but for
directories that have been made. -/
structure Written (directory : String) (now : Timestamp) (files : List (String × String))
    (disk disk' : Disk) : Prop where
  contents : ∀ file ∈ files,
    disk'.find? (Path.join directory file.1) = some (.file (Text.toBytes file.2) now)
  others : ∀ q e, ¬e.IsDirectory →
    (∀ file ∈ files, disk'.locate (Path.join directory file.1) ≠ .ok q) →
    (disk'.root.at? q = some e ↔ disk.root.at? q = some e)
  directories : ∀ q, disk.IsDirectoryAt q → disk'.IsDirectoryAt q

theorem WrittenAt.written (h : WrittenAt place now files disk disk')
    (hLeads : disk'.LeadsTo directory place) (hNames : ∀ file ∈ files, IsName file.1) :
    Written directory now files disk disk' where
  contents := fun file hFile =>
    hLeads.find?_join (hNames file hFile) (h.contents file hFile) id
  others := by
    intro q e hLeaf hElsewhere
    refine h.changed.at?_eq_some_iff (fun hMem => ?_) hLeaf
    obtain ⟨file, hFile, rfl⟩ := List.mem_map.1 hMem
    exact hElsewhere file hFile
      (hLeads.locate_join (hNames file hFile) (h.contents file hFile) id)
  directories := fun _ hAt => h.changed.isDirectoryAt hAt

theorem written_nil (h : Disk.Changed [] disk disk') : Written directory now [] disk disk' where
  contents := by simp
  others := fun _ _ hLeaf _ => h.at?_eq_some_iff (by simp) hLeaf
  directories := fun _ hAt => h.isDirectoryAt hAt

/-- How the writing of files into a directory ends, by the files that have been written: with all of
them, without the directory, or before one that cannot be written. -/
inductive Ends (disk : Disk) (directory : String) (files : List (String × String)) (disk' : Disk) :
    List (String × String) → Except WriteFailure (List String) → Prop
  | all : Ends disk directory files disk' files
      (.ok (files.map fun file => Path.join directory file.1))
  | notMade {cause : Disk.Failure} (h : (disk.ensureDirectory directory).2 = .error cause)
      (hMissing : disk.isDirectory directory = false) :
      Ends disk directory files disk' [] (.error (.creating directory cause))
  /-- If relative paths begin at a directory at all, only a directory keeps a file from being written. -/
  | stopped {written rest : List (String × String)} {file : String × String}
      {cause : Disk.Failure} (hFiles : files = written ++ file :: rest)
      (hDirectory : disk.IsDirectoryAt disk.home →
        cause = .isDirectory ∧ disk'.isDirectory (Path.join directory file.1) = true) :
      Ends disk directory files disk' written (.error (.writing (Path.join directory file.1) cause))

variable {survey : Survey} {summaryOnly : Bool}

/-- The files of a survey in the order in which they are written: its records, its summary and its
context, each as one JSON text, and the narrative of the context, which can also stand alone. -/
inductive FilesOf (survey : Survey) : Bool → List (String × String) → Prop
  | all : FilesOf survey false
      [("files_analysis.json", (Json.arr (survey.records.map Record.toJson)).pretty),
        ("project_structure.json", survey.summary.toJson.pretty),
        ("ai_context.json", survey.context.toJson.pretty),
        ("ai_summary.md", narrative survey.context)]
  | summaryOnly : FilesOf survey true [("ai_summary.md", narrative survey.context)]

/-- No other files are those of the survey: their names and their texts are fixed. -/
theorem FilesOf.eq_artifacts (h : FilesOf survey summaryOnly files) :
    files = artifacts survey summaryOnly := by
  cases h <;> rfl

theorem WrittenAt.after {disk'' : Disk} (h : WrittenAt place now files disk' disk'')
    (hMade : Disk.Changed [] disk disk') : WrittenAt place now files disk disk'' :=
  ⟨hMade.trans h.changed, h.contents⟩

/-- When the directory is there, all that is left to do is to write the files. -/
theorem write_of_ensured {disk₁ : Disk}
    (h : disk.ensureDirectory directory = (disk₁, .ok ())) :
    write disk directory survey summaryOnly now =
      writeFiles directory now (artifacts survey summaryOnly) disk₁ := by
  simp only [write, h]

/-- In a directory that is there, the files of a survey are written until there is a directory in the
place of one of them. -/
theorem write_writtenAt {disk₁ : Disk} (hEnsure : disk.ensureDirectory directory = (disk₁, .ok ()))
    (h : disk₁.LeadsTo directory place)
    (hLinks : ∀ file ∈ artifacts survey summaryOnly, ∀ target,
      disk₁.root.at? (place ++ [file.1]) ≠ some (.link target)) :
    ∃ written, WrittenAt place now written disk (write disk directory survey summaryOnly now).1 ∧
      (write disk directory survey summaryOnly now).1.LeadsTo directory place ∧
      Ends disk directory (artifacts survey summaryOnly)
        (write disk directory survey summaryOnly now).1 written
        (write disk directory survey summaryOnly now).2 := by
  have hMade : Disk.Changed [] disk disk₁ := by
    have hChanged := Disk.changed_ensureDirectory disk directory
    rwa [hEnsure] at hChanged
  have hNames : ∀ file ∈ artifacts survey summaryOnly, IsName file.1 :=
    fun _ => isName_of_mem_artifacts
  have hDistinct : ((artifacts survey summaryOnly).map (·.1)).Nodup :=
    (artifacts_names survey summaryOnly).sublist.nodup (by decide)
  obtain ⟨written, hWritten, hEnd⟩ := @writeFiles_writtenAt _ _ _ now _ h hNames hDistinct hLinks
  have hLeads := hWritten.changed.leadsTo h
  rw [write_of_ensured hEnsure]
  refine ⟨written, hWritten.after hMade, hLeads, ?_⟩
  rcases hEnd with ⟨hAll, hOk⟩ | ⟨file, rest, hFiles, hError, hDirectory⟩
  · rw [hOk, hAll]
    exact .all
  · rw [hError]
    refine .stopped hFiles fun _ => ⟨rfl, ?_⟩
    have hFile : file ∈ artifacts survey summaryOnly := by simp [hFiles]
    obtain ⟨entries, hAt⟩ := hDirectory
    rw [Disk.isDirectory, hLeads.find?_join (hNames file hFile) hAt id]

theorem Ends.subset {written : List (String × String)} {result : Except WriteFailure (List String)}
    (h : Ends disk directory files disk' written result) : written ⊆ files := by
  cases h with
  | all => exact List.Subset.refl _
  | notMade => exact List.nil_subset _
  | stopped hFiles =>
      rw [hFiles]
      exact List.subset_append_left _ _

/-- Whatever the disk, those files of a survey that have been written have their texts and nothing
else has changed. All are written, unless the directory cannot be made or there is a directory in
the place of a file. -/
theorem write_ends (disk : Disk) (directory : String) (survey : Survey) (summaryOnly : Bool)
    (now : Timestamp) (hLinks : ∀ file ∈ artifacts survey summaryOnly,
      (disk.ensureDirectory directory).1.isLink (Path.join directory file.1) = false) :
    ∃ written, Written directory now written disk (write disk directory survey summaryOnly now).1 ∧
      Ends disk directory (artifacts survey summaryOnly)
        (write disk directory survey summaryOnly now).1 written
        (write disk directory survey summaryOnly now).2 := by
  have hMade := Disk.changed_ensureDirectory disk directory
  rcases hEnsure : disk.ensureDirectory directory with ⟨disk₁, cause | _⟩
  · rw [hEnsure] at hMade
    have hWrite : write disk directory survey summaryOnly now =
        (disk₁, .error (.creating directory cause)) := by
      simp only [write, hEnsure]
    rw [hWrite]
    refine ⟨[], written_nil hMade, .notMade (by rw [hEnsure]) ?_⟩
    by_contra hDirectory
    rw [Bool.not_eq_false] at hDirectory
    rw [Disk.ensureDirectory_of_isDirectory hDirectory] at hEnsure
    cases hEnsure
  · rw [hEnsure] at hMade hLinks
    by_cases hLeads : ∃ place, disk₁.LeadsTo directory place
    · obtain ⟨place, hLeads⟩ := hLeads
      obtain ⟨written, hWritten, hLeads', hEnds⟩ :=
        @write_writtenAt _ _ _ now survey summaryOnly _ hEnsure hLeads (by
          intro file hFile target hAt
          have hLink := hLeads.isLink_join (isName_of_mem_artifacts hFile) hAt
          rw [hLinks file hFile] at hLink
          cases hLink)
      exact ⟨written, hWritten.written hLeads' fun file hFile =>
        isName_of_mem_artifacts (hEnds.subset hFile), hEnds⟩
    · -- nothing has been made for a path that is none, and the first file already fails
      have hEmpty : directory = "" := by
        by_contra hPath
        exact hLeads (Disk.leadsTo_of_ensureDirectory hEnsure hPath)
      obtain ⟨file, rest, hFiles⟩ :=
        List.exists_cons_of_ne_nil (artifacts_ne_nil survey summaryOnly)
      have hName : IsName file.1 := isName_of_mem_artifacts (hFiles ▸ List.mem_cons_self : file ∈ _)
      obtain ⟨cause, hStopped⟩ := @writeFiles_of_not_leadsTo _ _ now hLeads _ hName rest
      rw [write_of_ensured hEnsure, hFiles, hStopped]
      refine ⟨[], written_nil hMade,
        @Ends.stopped disk directory _ disk₁ [] rest file cause rfl fun hHome => ?_⟩
      subst hEmpty
      exact absurd ⟨disk₁.home, rfl, hMade.home ▸ hMade.isDirectoryAt hHome⟩ hLeads

/-- The path of the output still leads to it afterwards. -/
theorem leadsTo_write (h : disk.LeadsTo directory place) :
    (write disk directory survey summaryOnly now).1.LeadsTo directory place := by
  have hEnsure : disk.ensureDirectory directory = (disk, .ok ()) := by
    by_cases hPath : directory = ""
    · rw [hPath]
      rfl
    · exact Disk.ensureDirectory_of_isDirectory (h.isDirectory hPath)
  rw [write_of_ensured hEnsure]
  exact leadsTo_writeFiles h fun _ => isName_of_mem_artifacts

/-- If all files of a survey have been written, they are in the directory, unless links were in their
places. -/
theorem writtenAt_of_write_eq_ok {disk₁ : Disk} {paths : List String}
    (h : write disk directory survey summaryOnly now = (disk₁, .ok paths))
    (hLocate : disk₁.locate directory = .ok place)
    (hLinks : ∀ name ∈ artifactNames, ∀ target,
      disk.root.at? (place ++ [name]) ≠ some (.link target)) :
    disk₁.LeadsTo directory place ∧
      WrittenAt place now (artifacts survey summaryOnly) disk disk₁ := by
  have hPath : directory ≠ "" := by
    rintro rfl
    cases hLocate
  have hMade := Disk.changed_ensureDirectory disk directory
  rcases hEnsure : disk.ensureDirectory directory with ⟨disk₀, cause | _⟩
  · simp [write, hEnsure] at h
  · rw [hEnsure] at hMade
    obtain ⟨there, hThere⟩ := Disk.leadsTo_of_ensureDirectory hEnsure hPath
    -- where the directory is, is known only for the disk at the end
    have hStill : disk₁.LeadsTo directory there := by
      have hFiles := @leadsTo_writeFiles _ directory now (artifacts survey summaryOnly) _ _ hThere
        fun _ => isName_of_mem_artifacts
      rwa [← write_of_ensured hEnsure, h] at hFiles
    cases (hStill.locate_eq hPath).symm.trans hLocate
    obtain ⟨written, hWritten, _, hEnds⟩ :=
      @write_writtenAt _ _ _ now survey summaryOnly _ hEnsure hThere (by
        intro file hFile target hLink
        have hName := (artifacts_names survey summaryOnly).subset (List.mem_map_of_mem hFile)
        exact hLinks file.1 hName target ((hMade.at?_eq_some_iff (by simp) id).1 hLink))
    rw [h] at hWritten hEnds
    cases hEnds
    exact ⟨hStill, hWritten⟩

end SourceSurvey.Report
