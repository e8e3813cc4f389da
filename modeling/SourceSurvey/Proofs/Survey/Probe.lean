import SourceSurvey.Proofs.Disk.Place
import SourceSurvey.Proofs.Survey.Rules
import SourceSurvey.Proofs.Survey.Run
import SourceSurvey.Proofs.Survey.Walk

/-!
The paths that a summary names. Configuration and documentation are taken from what was walked; an
entry point is looked up on the disk, so that it may lie where the walk does not go.
-/

namespace SourceSurvey

/-- Entry points lie at the root or in one directory below it. -/
theorem Probe.entryPointCandidates_eq : entryPointCandidates = entryPointCandidates.take 12 ++
    ["main.rs", "index.js", "index.ts", "main.ts"].map ("src/" ++ ·) := rfl

namespace Survey

open Disk

variable {disk : Disk} {filter : Filter} {place names : List String} {root : String}
  {config : Config} {timestamp : Timestamp} {survey : Survey} {name path : String}

/-- A path is walked if there is a file, which is reached straight on, and nothing on the way is
skipped. -/
theorem mem_walkedPaths_iff (hNames : ∀ name ∈ names, IsName name) (hNil : names ≠ []) :
    "/".intercalate names ∈ walkedPaths disk filter place ↔
      (∃ bytes modified, disk.below? place names = some (.file bytes modified)) ∧
      Kept (fun names => filter.skips ("/".intercalate names)) names ∧
      disk.Straight place names := by
  rw [walkedPaths, List.mem_map]
  constructor
  · intro h
    obtain ⟨found, hFound, hPath⟩ := h
    have hSame : found.names = names :=
      Path.intercalate_injOn (isName_of_mem_walk hFound) hNames hPath
    subst hSame
    obtain ⟨_, hFile, hKept, hStraight⟩ := mem_walk_iff.1 hFound
    exact ⟨⟨found.bytes, found.modified, below?_eq_some_iff.2 hFile⟩, hKept, hStraight⟩
  · intro h
    obtain ⟨⟨bytes, modified, hFile⟩, hKept, hStraight⟩ := h
    exact ⟨⟨names, bytes, modified⟩,
      mem_walk_iff.2 ⟨hNil, below?_eq_some_iff.1 hFile, hKept, hStraight⟩, rfl⟩

/-- A file that is not skipped itself is walked if its directory is. -/
theorem concat_mem_walkedPaths_iff (hNames : ∀ n ∈ names ++ [name], IsName n)
    (hFile : ∃ bytes modified, disk.below? place (names ++ [name]) = some (.file bytes modified))
    (hKept : filter.skips ("/".intercalate (names ++ [name])) = false) :
    "/".intercalate (names ++ [name]) ∈ walkedPaths disk filter place ↔
      Kept (fun names => filter.skips ("/".intercalate names)) names ∧
      disk.Straight place names := by
  obtain ⟨bytes, modified, hAt⟩ := hFile
  rw [mem_walkedPaths_iff hNames (by simp), kept_concat, straight_concat_of_file hAt]
  simp only [hKept, and_true]
  exact and_iff_right ⟨bytes, modified, hAt⟩

/-- An entry point is one of the candidates with a file, which is not skipped itself. -/
theorem mem_entryPoints_iff (hPlace : disk.IsDirectoryAt place)
    (hNames : ∀ name ∈ names, IsName name) (hNil : names ≠ []) :
    "/".intercalate names ∈ Probe.entryPoints disk (pathOf place) filter ↔
      "/".intercalate names ∈ Probe.entryPointCandidates ∧
      filter.skips ("/".intercalate names) = false ∧
      ∃ bytes modified, disk.below? place names = some (.file bytes modified) := by
  rw [Probe.entryPoints, List.mem_filter, ← isFile_join_pathOf hPlace hNames hNil]
  simp

/-- The directory above an entry point is the root or `src`. -/
theorem exists_names_of_mem_candidates (h : path ∈ Probe.entryPointCandidates) :
    ∃ name, IsName name ∧ (path = "/".intercalate [name] ∧ path.startsWith "src/" = false ∨
      path = "/".intercalate ["src", name] ∧ path.startsWith "src/" = true) := by
  have hRoot : ∀ name ∈ Probe.entryPointCandidates.take 12,
      IsName name ∧ name.startsWith "src/" = false := by
    decide +kernel
  have hBelow : ∀ name ∈ ["main.rs", "index.js", "index.ts", "main.ts"],
      IsName name ∧ "src/" ++ name = "/".intercalate ["src", name] ∧
        ("src/" ++ name).startsWith "src/" = true := by
    decide +kernel
  rw [Probe.entryPointCandidates_eq, List.mem_append, List.mem_map] at h
  rcases h with hPath | ⟨name, hName, rfl⟩
  · exact ⟨path, (hRoot path hPath).1, Or.inl ⟨by simp, (hRoot path hPath).2⟩⟩
  · exact ⟨name, (hBelow name hName).1, Or.inr (hBelow name hName).2⟩

/-- An entry point is walked unless it is in a directory that is skipped or leads back. -/
theorem entryPoint_mem_walkedPaths_iff (hPlace : disk.IsDirectoryAt place)
    (h : path ∈ Probe.entryPoints disk (pathOf place) filter) :
    path ∈ walkedPaths disk filter place ↔ (path.startsWith "src/" →
      filter.skips "src" = false ∧ ¬disk.LeadsBack place ["src"]) := by
  obtain ⟨name, hName, hPath⟩ := exists_names_of_mem_candidates (List.mem_of_mem_filter h)
  rcases hPath with ⟨hPath, hStart⟩ | ⟨hPath, hStart⟩
  all_goals rw [hPath] at h hStart ⊢
  · have hNames : ∀ n ∈ [] ++ [name], IsName n := by simpa using hName
    obtain ⟨_, hKept, hFile⟩ := (mem_entryPoints_iff hPlace hNames (by simp)).1 h
    rw [hStart]
    simpa using (concat_mem_walkedPaths_iff hNames hFile hKept).2 ⟨kept_nil, straight_nil⟩
  · have hNames : ∀ n ∈ ["src"] ++ [name], IsName n :=
      List.forall_mem_append.2 ⟨by decide, by simpa using hName⟩
    obtain ⟨_, hKept, hFile⟩ := (mem_entryPoints_iff hPlace hNames (by simp)).1 h
    have hWalked := concat_mem_walkedPaths_iff hNames hFile hKept
    rw [← List.nil_append ["src"], kept_concat, straight_concat] at hWalked
    simpa [hStart, kept_nil, straight_nil] using hWalked

/-- A name that is left out does not tell the directory from what lies in it, which is skipped for
that name as well; only a pattern does. -/
theorem skips_src_eq (hFileNames : filter.fileNames = Filter.defaultFileNames)
    (hSrc : path.startsWith "src/" = true) (h : path ∈ Probe.entryPoints disk root filter) :
    filter.skips "src" = filter.paths.any (·.isMatch "src") := by
  have hParts : ∀ path ∈ Probe.entryPointCandidates, path.startsWith "src/" = true →
      Path.Component.name "src" ∈ Path.components path ∧ (Path.fileName? path).isSome := by
    decide +kernel
  have hDirectory : Path.components "src" = [.name "src"] ∧ Path.fileName? "src" = some "src" ∧
      "src".startsWith "." = false ∧ Filter.defaultFileNames.any (·.isMatch "src") = false := by
    decide +kernel
  obtain ⟨hComponents, hFileName, hVisible, hPlain⟩ := hDirectory
  obtain ⟨hCandidate, hKept⟩ := List.mem_filter.1 h
  obtain ⟨hPart, hBase⟩ := hParts path hCandidate hSrc
  obtain ⟨base, hBase⟩ := Option.isSome_iff_exists.1 hBase
  have hName : filter.names.contains "src" = false := by
    simp only [Filter.skips_def, hBase, Bool.and_eq_true, Bool.not_eq_true', Bool.or_eq_false_iff,
      List.any_eq_false] at hKept
    simpa using hKept.1.1.2 _ hPart
  rw [List.contains_eq_mem, decide_eq_false_iff_not] at hName
  simp [Filter.skips_def, hFileName, hComponents, hVisible, hFileNames, hPlain, hName]

/-- The configuration and documentation that a survey names are walked. So are the entry points, but
for those in `src` if a pattern leaves out that directory or it is a link back to the root. -/
theorem named_paths_walked (h : run disk root config timestamp = .ok survey) :
    ∃ place rules, rootPlace disk root = .ok place ∧ Rules.ofConfig config = .ok rules ∧
      (∀ path ∈ survey.summary.configPaths, path ∈ walkedPaths disk rules.filter place) ∧
      (∀ path ∈ survey.summary.docPaths, path ∈ walkedPaths disk rules.filter place) ∧
      ∀ path ∈ survey.summary.entryPoints, path ∈ walkedPaths disk rules.filter place ↔
        (path.startsWith "src/" → (∀ pattern ∈ rules.filter.paths, pattern.isMatch "src" = false) ∧
          ¬disk.LeadsBack place ["src"]) := by
  obtain ⟨place, rules, hPlace, hRules, rfl⟩ := run_eq_ok_iff.1 h
  refine ⟨place, rules, hPlace, hRules, ?_, ?_, ?_⟩
  · intro path hPath
    exact List.mem_of_mem_filter hPath
  · intro path hPath
    exact List.mem_of_mem_filter (List.mem_of_mem_take hPath)
  · intro path hPath
    rw [entryPoint_mem_walkedPaths_iff (rootPlace_eq_ok_iff.1 hPlace).2 hPath]
    apply forall_congr'
    intro hSrc
    apply and_congr_left
    intro _
    obtain ⟨globs, _, hFilter⟩ :=
      Filter.withExtras_eq_ok_iff.1 (Rules.ofConfig_eq_ok_iff.1 hRules).1
    rw [skips_src_eq (by rw [← hFilter]) hSrc hPath]
    simp

/-- A single file in `src`. -/
def projectInSrc : Disk :=
  Disk.empty.put ["repo", "src", "main.rs"] (.file [] .epoch) trivial

/-- With `src` left out, its file is still named as an entry point. -/
theorem excluded_entry_point_named :
    ∃ survey place rules,
      run projectInSrc "/repo" { excludedPaths := ["src"] } .epoch = .ok survey ∧
      rootPlace projectInSrc "/repo" = .ok place ∧
      Rules.ofConfig { excludedPaths := ["src"] } = .ok rules ∧
      "src/main.rs" ∈ survey.summary.entryPoints ∧
      "src/main.rs" ∉ walkedPaths projectInSrc rules.filter place := by
  have hPlace : rootPlace projectInSrc "/repo" = .ok ["repo"] := by decide +kernel
  obtain ⟨rules, hRules, hFilter⟩ : ∃ rules, Rules.ofConfig { excludedPaths := ["src"] } = .ok rules ∧
      rules.filter = ⟨Filter.defaultNames, Filter.defaultFileNames, [⟨Glob.plain "src"⟩]⟩ :=
    ⟨_, rfl, rfl⟩
  obtain ⟨survey, hSurvey⟩ : ∃ survey, ofPlace projectInSrc ["repo"] rules {} .epoch = survey :=
    ⟨_, rfl⟩
  have hRun := run_eq_ok_iff.2 ⟨_, rules, hPlace, hRules, hSurvey⟩
  have hNamed : "src/main.rs" ∈ Probe.entryPoints projectInSrc (pathOf ["repo"])
      ⟨Filter.defaultNames, Filter.defaultFileNames, [⟨Glob.plain "src"⟩]⟩ := by
    decide +kernel
  have hMatch : (⟨Glob.plain "src"⟩ : Glob).isMatch "src" = true := by decide +kernel
  have hSrc : "src/main.rs".startsWith "src/" = true := by decide +kernel
  rw [← hFilter] at hNamed
  have hEntryPoint : "src/main.rs" ∈ survey.summary.entryPoints := hSurvey ▸ hNamed
  refine ⟨survey, ["repo"], rules, hRun, hPlace, hRules, hEntryPoint, ?_⟩
  intro hWalked
  obtain ⟨place, rules', hPlace', hRules', _, _, hEntry⟩ := named_paths_walked hRun
  have hSameRules := Except.ok.inj (hRules.symm.trans hRules')
  have hSamePlace := Except.ok.inj (hPlace.symm.trans hPlace')
  subst hSameRules
  subst hSamePlace
  have hKept := ((hEntry _ hEntryPoint).1 hWalked hSrc).1 ⟨Glob.plain "src"⟩ (by simp [hFilter])
  simp [hMatch] at hKept

end Survey

end SourceSurvey
