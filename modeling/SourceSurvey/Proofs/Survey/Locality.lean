import SourceSurvey.Proofs.Disk.Write
import SourceSurvey.Proofs.Survey.Outputs

/-!
What a change of single files does to a survey. Each file is judged and read by itself, so that where
two trees agree, the files that are walked and their records are the same and in the same order.
-/

namespace SourceSurvey

namespace Disk

variable {disk disk' : Disk} {place : List String} {except : List (List String)} {tree : Entry}

/-- One file is written at a place or removed from there. -/
inductive FileChange (place : List String) (disk : Disk) : Disk → Prop
  | put (bytes : List UInt8) (modified : Timestamp) :
      FileChange place disk (disk.put place (.file bytes modified) trivial)
  | remove : FileChange place disk (disk.remove place)

/-- A change of one file changes that place alone. What is replaced or removed must be a file
itself. -/
theorem FileChange.changed (h : FileChange place disk disk') (hPlace : place ≠ [])
    (hOld : ∀ e, disk.root.at? place = some e → ∃ bytes modified, e = .file bytes modified) :
    Changed [place] disk disk' := by
  cases h with
  | put bytes modified => exact changed_put hPlace _ (Entry.isBare_file bytes modified) hOld
  | remove => exact changed_remove hOld

/-- No link is made by it. -/
theorem FileChange.not_link (h : FileChange place disk disk') (hPlace : place ≠ [])
    (hOld : ∀ e, disk.root.at? place = some e → ∃ bytes modified, e = .file bytes modified)
    (target : String) : disk'.root.at? place ≠ some (.link target) := by
  have hOldLink : disk.root.at? place ≠ some (.link target) := by
    intro hLink
    obtain ⟨_, _, hFile⟩ := hOld _ hLink
    cases hFile
  cases h with
  | put bytes modified =>
      rw [@root_put disk place (.file bytes modified) hPlace trivial]
      rcases Entry.at?_put_self (.file bytes modified) disk.root place with hNew | hStill
      · simp [hNew]
      · rwa [hStill]
  | remove =>
      rw [root_remove]
      rcases Entry.at?_remove_self disk.root place hPlace with hGone | hStill
      · simp [hGone]
      · rwa [hStill]

/-- Two trees have the same files, except perhaps under some names. -/
def Entry.AgreeBut (except : List (List String)) (tree tree' : Entry) : Prop :=
  ∀ names, names ∉ except → ∀ bytes modified,
    (tree.at? names = some (.file bytes modified) ↔ tree'.at? names = some (.file bytes modified))

/-- After changes at some names, which made no links, a tree without links is still one, and it
agrees with what it was before. -/
theorem Changed.exists_tree (h : Changed (except.map (place ++ ·)) disk disk')
    (hPlace : disk.IsDirectoryAt place) (hTree : disk.root.at? place = some tree)
    (hFree : tree.LinkFree)
    (hLinks : ∀ names ∈ except, ∀ target, disk'.root.at? (place ++ names) ≠ some (.link target)) :
    ∃ tree', disk'.root.at? place = some tree' ∧ tree'.LinkFree ∧ tree.AgreeBut except tree' := by
  obtain ⟨entries, hTree'⟩ := h.isDirectoryAt hPlace
  have hKept {names : List String} (hNames : names ∉ except) {e : Entry} (hLeaf : ¬e.IsDirectory) :
      (Entry.directory entries).at? names = some e ↔ tree.at? names = some e := by
    rw [← at?_place_append hTree', ← at?_place_append hTree]
    exact h.at?_eq_some_iff (by simpa using hNames) hLeaf
  refine ⟨.directory entries, hTree', ?_, ?_⟩
  · intro names target hLink
    by_cases hNames : names ∈ except
    · rw [← at?_place_append hTree'] at hLink
      exact hLinks names hNames target hLink
    · exact hFree names target ((hKept hNames id).1 hLink)
  · intro names hNames bytes modified
    exact (hKept hNames id).symm

end Disk

namespace Survey

open Disk

variable {disk disk' : Disk} {place place' names : List String} {tree tree' : Entry}
  {except : List (List String)} {root : String} {config : Config} {timestamp : Timestamp}
  {survey : Survey} {rules : Rules}

/-- The root of a survey stays where it is when files change. -/
theorem rootPlace_of_changed {places : List (List String)} (h : Changed places disk disk')
    (hPlace : rootPlace disk root = .ok place) : rootPlace disk' root = .ok place := by
  obtain ⟨hLocate, hAt⟩ := rootPlace_eq_ok_iff.1 hPlace
  refine rootPlace_eq_ok_iff.2 ⟨?_, h.isDirectoryAt hAt⟩
  rw [locate] at hLocate ⊢
  split at hLocate
  · cases hLocate
  · rw [if_neg (by assumption), h.startOf_eq]
    exact h.resolve_eq hLocate hAt

/-- Where two trees without links agree, a walk finds the same files in the same order. -/
theorem filter_walk_eq (hTree : disk.root.at? place = some tree)
    (hTree' : disk'.root.at? place' = some tree') (hFree : tree.LinkFree) (hFree' : tree'.LinkFree)
    (hAgree : tree.AgreeBut except tree') {filter : Filter} {p : String → Bool}
    (hExcept : ∀ names ∈ except, Kept (fun names => filter.skips ("/".intercalate names)) names →
      p ("/".intercalate names) = false) :
    ((walk disk filter place).filter fun found => p (relativePath found)) =
      (walk disk' filter place').filter fun found => p (relativePath found) := by
  apply eq_of_mem_iff ((walk_pairwise disk filter place).sublist List.filter_sublist)
    ((walk_pairwise disk' filter place').sublist List.filter_sublist)
  intro found
  rw [List.mem_filter, List.mem_filter]
  apply and_congr_left
  intro hP
  rw [mem_walk_iff_of_linkFree hTree hFree, mem_walk_iff_of_linkFree hTree' hFree', ← and_assoc,
    ← and_assoc]
  apply and_congr_left
  intro hKept
  apply and_congr_right
  intro _
  refine hAgree _ (fun hNames => ?_) _ _
  rw [relativePath_def, hExcept found.names hNames hKept] at hP
  cases hP

/-- The records at the paths where two trees without links agree. -/
theorem filter_records_eq (hTree : disk.root.at? place = some tree)
    (hTree' : disk'.root.at? place' = some tree') (hFree : tree.LinkFree) (hFree' : tree'.LinkFree)
    (hAgree : tree.AgreeBut except tree') {p : String → Bool}
    (hExcept : ∀ names ∈ except,
      Kept (fun names => rules.filter.skips ("/".intercalate names)) names →
      rules.accepts ("/".intercalate names) = true → p ("/".intercalate names) = false)
    (thresholds : Thresholds) (timestamp : Timestamp) :
    ((ofPlace disk place rules thresholds timestamp).records.filter fun r => p r.path) =
      (ofPlace disk' place' rules thresholds timestamp).records.filter fun r => p r.path := by
  have hFiles := @filter_walk_eq _ _ _ _ _ _ _ hTree hTree' hFree hFree' hAgree rules.filter
    (fun path => p path && rules.accepts path) (by
      intro names hNames hKept
      cases hAccepts : rules.accepts ("/".intercalate names) with
      | false => rw [Bool.and_false]
      | true => rw [hExcept names hNames hKept hAccepts, Bool.false_and])
  simp only [ofPlace_def, List.filter_map, List.filter_filter, Function.comp_def, Rules.record,
    PathText.shown_string]
  rw [hFiles]

/-- Of the paths that are walked, those where the trees agree are the same. -/
theorem filter_walkedPaths_eq (hTree : disk.root.at? place = some tree)
    (hTree' : disk'.root.at? place' = some tree') (hFree : tree.LinkFree) (hFree' : tree'.LinkFree)
    (hAgree : tree.AgreeBut except tree') {filter : Filter} {p : String → Bool}
    (hExcept : ∀ names ∈ except, p ("/".intercalate names) = false) :
    (walkedPaths disk filter place).filter p = (walkedPaths disk' filter place').filter p := by
  have hFiles := @filter_walk_eq _ _ _ _ _ _ _ hTree hTree' hFree hFree' hAgree filter p
    fun names hNames _ => hExcept names hNames
  rw [walkedPaths, walkedPaths, List.filter_map, List.filter_map]
  exact congrArg (List.map relativePath) hFiles

/-- Entry points are the same as long as no candidate is among the exceptions. -/
theorem entryPoints_eq (hPlace : disk.IsDirectoryAt place) (hPlace' : disk'.IsDirectoryAt place')
    (hTree : disk.root.at? place = some tree) (hTree' : disk'.root.at? place' = some tree')
    (hFree : tree.LinkFree) (hFree' : tree'.LinkFree) (hAgree : tree.AgreeBut except tree')
    (hExcept : ∀ names ∈ except, "/".intercalate names ∉ Probe.entryPointCandidates)
    (filter : Filter) :
    Probe.entryPoints disk (pathOf place) filter = Probe.entryPoints disk' (pathOf place') filter := by
  apply List.filter_congr
  intro path hCandidate
  obtain ⟨names, hNames, hNil, rfl⟩ : ∃ names, (∀ n ∈ names, IsName n) ∧ names ≠ [] ∧
      path = "/".intercalate names := by
    obtain ⟨name, hName, ⟨hPath, _⟩ | ⟨hPath, _⟩⟩ := exists_names_of_mem_candidates hCandidate
    · exact ⟨[name], by simpa using hName, by simp, hPath⟩
    · exact ⟨["src", name], by simpa using ⟨by decide, hName⟩, by simp, hPath⟩
  congr 1
  rw [PathText.ofText_string, Bool.eq_iff_iff, isFile_join_pathOf hPlace hNames hNil,
    isFile_join_pathOf hPlace' hNames hNil, below?_eq_at? hTree hFree, below?_eq_at? hTree' hFree']
  have hSame := hAgree names fun hMem => hExcept names hMem hCandidate
  exact exists_congr fun bytes => exists_congr fun modified => hSame bytes modified

/-- Manifests are the same as long as none is among the exceptions. -/
theorem manifests_eq (hAgree : tree.AgreeBut except tree')
    (hExcept : ∀ e : Ecosystem, [e.manifestName] ∉ except) (e : Ecosystem) :
    manifests tree e = manifests tree' e := by
  have hSame := hAgree _ (hExcept e)
  apply Option.ext
  intro bytes
  rw [manifests, manifests, Option.bind_eq_some_iff, Option.bind_eq_some_iff]
  have hFile (entry : Entry) : entry.bytes? = some bytes ↔ ∃ modified, entry = .file bytes modified := by
    cases entry <;> simp [Entry.bytes?, eq_comm]
  constructor
  · rintro ⟨entry, hAt, hBytes⟩
    obtain ⟨modified, rfl⟩ := (hFile entry).1 hBytes
    exact ⟨_, (hSame bytes modified).1 hAt, rfl⟩
  · rintro ⟨entry, hAt, hBytes⟩
    obtain ⟨modified, rfl⟩ := (hFile entry).1 hBytes
    exact ⟨_, (hSame bytes modified).2 hAt, rfl⟩

/-! ### One changed file -/

/-- When one file of a tree without links is added, replaced or removed, the records of all others
stay as they are and in the same order. If the file is skipped, or a directory above it, or its
language is not surveyed, all records do. -/
theorem records_of_changed_file (hPlace : rootPlace disk root = .ok place)
    (hTree : disk.root.at? place = some tree) (hFree : tree.LinkFree)
    (hRules : Rules.ofConfig config = .ok rules) (hNames : names ≠ [])
    (hOld : ∀ e, tree.at? names = some e → ∃ bytes modified, e = .file bytes modified)
    (hChange : FileChange (place ++ names) disk disk') :
    ∃ survey survey', run disk root config timestamp = .ok survey ∧
      run disk' root config timestamp = .ok survey' ∧
      (survey'.records.filter fun r => r.path ≠ "/".intercalate names) =
        (survey.records.filter fun r => r.path ≠ "/".intercalate names) ∧
      ((∃ beginning, beginning <+: names ∧ beginning ≠ [] ∧
          rules.filter.skips ("/".intercalate beginning) = true) ∨
        config.includeTextFiles = false ∧
          (Language.ofPath ("/".intercalate names)).isKnown = false →
        survey'.records = survey.records) := by
  have hOldAt : ∀ e, disk.root.at? (place ++ names) = some e →
      ∃ bytes modified, e = .file bytes modified := by
    rwa [at?_place_append hTree]
  have hChanged := hChange.changed (by simp [hNames]) hOldAt
  have hLinks : ∀ q ∈ [names], ∀ target, disk'.root.at? (place ++ q) ≠ some (.link target) := by
    intro q hQ target
    rw [List.mem_singleton.1 hQ]
    exact hChange.not_link (by simp [hNames]) hOldAt target
  obtain ⟨tree', hTree', hFree', hAgree⟩ :=
    @Changed.exists_tree _ _ _ [names] _ hChanged (rootPlace_eq_ok_iff.1 hPlace).2 hTree hFree hLinks
  refine ⟨_, _, run_of_rules hPlace hRules,
    run_of_rules (rootPlace_of_changed hChanged hPlace) hRules, ?_, ?_⟩
  · exact (@filter_records_eq _ _ _ _ _ _ _ rules hTree hTree' hFree hFree' hAgree
      (· ≠ "/".intercalate names) (by simp) _ _).symm
  · intro hUnseen
    have hAll := @filter_records_eq _ _ _ _ _ _ _ rules hTree hTree' hFree hFree' hAgree
      (fun _ => true) (by
        intro q hQ hKept hAccepts
        rw [List.mem_singleton.1 hQ] at hKept hAccepts
        simp only [Rules.accepts, Bool.and_eq_true, Bool.or_eq_true] at hAccepts
        rw [(Rules.ofConfig_eq_ok_iff.1 hRules).2.2.2] at hUnseen
        rcases hUnseen with ⟨beginning, hPrefix, hNil, hSkips⟩ | ⟨hText, hUnknown⟩
        · exact absurd (hKept beginning hPrefix hNil) (by simp [hSkips])
        · simp [hText, hUnknown] at hAccepts) config.thresholds timestamp
    simpa using hAll.symm

/-- The paths of the records when texts have records too. -/
theorem paths_of_service {survey : Survey} (hPlace : rootPlace disk "/repo" = .ok ["repo"])
    (h : run disk "/repo" serviceConfig .epoch = .ok survey) :
    survey.records.map (·.path) = ((walk disk plainFilter ["repo"]).filter fun found =>
      !plainFilter.skips (relativePath found)).map relativePath := by
  obtain ⟨rules, hRules, hFilter, hInclude⟩ : ∃ rules, Rules.ofConfig serviceConfig = .ok rules ∧
      rules.filter = plainFilter ∧ rules.includeTextFiles = true :=
    ⟨_, rfl, rfl, rfl⟩
  cases (run_of_rules hPlace hRules).symm.trans h
  simp only [ofPlace_def, List.map_map, Function.comp_def, Rules.record, Rules.accepts, hFilter,
    hInclude, Bool.true_or, Bool.and_true]
  rfl

/-- A service gets one more script, another text or one file less, and only the records of these files
change. A file that is added to a package which is left out has no effect on any record. -/
theorem records_of_larger_package : ∃ survey added replaced removed packaged,
    run diskOfService "/repo" serviceConfig .epoch = .ok survey ∧
      run (diskOfService.put ["repo", "lib", "a.py"] (.file [49] .epoch) trivial) "/repo"
        serviceConfig .epoch = .ok added ∧
      run (diskOfService.put ["repo", "app.py"] (.file [49] .epoch) trivial) "/repo" serviceConfig
        .epoch = .ok replaced ∧
      run (diskOfService.remove ["repo", "lib", "x.js"]) "/repo" serviceConfig .epoch = .ok removed ∧
      run (diskOfService.put ["repo", "node_modules", "y.js"] (.file [49] .epoch) trivial) "/repo"
        serviceConfig .epoch = .ok packaged ∧
      survey.records.map (·.path) = ["app.py", "lib/x.js", "requirements.txt"] ∧
      added.records.map (·.path) = ["app.py", "lib/a.py", "lib/x.js", "requirements.txt"] ∧
      removed.records.map (·.path) = ["app.py", "requirements.txt"] ∧
      (added.records.filter fun r => r.path ≠ "lib/a.py") =
        (survey.records.filter fun r => r.path ≠ "lib/a.py") ∧
      (replaced.records.filter fun r => r.path ≠ "app.py") =
        (survey.records.filter fun r => r.path ≠ "app.py") ∧
      (removed.records.filter fun r => r.path ≠ "lib/x.js") =
        (survey.records.filter fun r => r.path ≠ "lib/x.js") ∧
      packaged.records = survey.records := by
  have hPlace : rootPlace diskOfService "/repo" = .ok ["repo"] := by decide +kernel
  have hFree : serviceWithPackage.LinkFree := by
    simp [serviceWithPackage, Entry.linkFree_directory, Entry.linkFree_file]
  obtain ⟨rules, hRules, hFilter⟩ : ∃ rules, Rules.ofConfig serviceConfig = .ok rules ∧
      rules.filter = plainFilter :=
    ⟨_, rfl, rfl⟩
  have hChanged {names : List String} {disk' : Disk} :=
    @records_of_changed_file _ disk' _ names _ _ _ .epoch _ hPlace rfl hFree hRules
  obtain ⟨survey, added, hRun, hAdded, hOthers, _⟩ :=
    @hChanged ["lib", "a.py"] _ (by simp) (by rintro _ ⟨⟩) (.put [49] .epoch)
  obtain ⟨_, replaced, hRun', hReplaced, hOthers', _⟩ :=
    @hChanged ["app.py"] _ (by simp) (by rintro _ ⟨⟩; exact ⟨_, _, rfl⟩) (.put [49] .epoch)
  cases hRun.symm.trans hRun'
  obtain ⟨_, removed, hRun', hRemoved, hOthers'', _⟩ :=
    @hChanged ["lib", "x.js"] _ (by simp) (by rintro _ ⟨⟩; exact ⟨_, _, rfl⟩) .remove
  cases hRun.symm.trans hRun'
  obtain ⟨_, packaged, hRun', hPackaged, _, hSame⟩ :=
    @hChanged ["node_modules", "y.js"] _ (by simp) (by rintro _ ⟨⟩) (.put [49] .epoch)
  cases hRun.symm.trans hRun'
  have hSkips : plainFilter.skips ("/".intercalate ["node_modules"]) = true := by decide +kernel
  refine ⟨survey, added, replaced, removed, packaged, hRun, hAdded, hReplaced, hRemoved, hPackaged,
    ?_, ?_, ?_, hOthers, hOthers', hOthers'',
    hSame (.inl ⟨["node_modules"], ⟨["y.js"], rfl⟩, by simp, by rw [hFilter, hSkips]⟩)⟩
  · rw [paths_of_service hPlace hRun]
    decide +kernel
  · rw [paths_of_service (by decide +kernel) hAdded]
    decide +kernel
  · rw [paths_of_service (by decide +kernel) hRemoved]
    decide +kernel

end Survey

end SourceSurvey
