import SourceSurvey.Proofs.Disk.LinkFree
import SourceSurvey.Proofs.Manifest
import SourceSurvey.Proofs.Survey.Probe

/-!
What a survey depends on. Of a tree without links it is the paths that are walked, the files in
known languages and the manifests at the root, wherever the tree is.
-/

namespace SourceSurvey

/-- The name and the root of a project stand in the first lines of an overview, and all else is
independent of them. -/
theorem Report.overview_eq (records : List Record) (s : Summary) (threshold : Nat) :
    ∃ rest, ∀ name root, overview records { s with name := name, rootPath := root } threshold =
      "# Project Analysis: " ++ name ++ rest := by
  refine ⟨"\n" ++ ofLines (overviewLines records s threshold).tail, ?_⟩
  intro name root
  have hLines : overviewLines records { s with name := name, rootPath := root } threshold =
      ("# Project Analysis: " ++ name) :: (overviewLines records s threshold).tail := rfl
  rw [overview, ofLines, hLines, List.map_cons, String.join_cons, ofLines, String.append_assoc,
    String.append_assoc]

namespace Survey

open Disk

variable {disk disk' : Disk} {place place' names : List String} {tree tree' : Entry} {path : String}
  {filter : Filter}

/-- In a tree without links the walk finds the files of the tree under names that are kept. -/
theorem mem_walk_iff_of_linkFree (hTree : disk.root.at? place = some tree) (hFree : tree.LinkFree)
    {found : Found} : found ∈ walk disk filter place ↔ found.names ≠ [] ∧
      tree.at? found.names = some (.file found.bytes found.modified) ∧
      Kept (fun names => filter.skips ("/".intercalate names)) found.names := by
  rw [mem_walk_iff, ← below?_eq_some_iff, below?_eq_at? hTree hFree]
  simp only [straight_of_linkFree hTree hFree, and_true]
  rfl

/-- The same for the paths of these files. -/
theorem mem_walkedPaths_iff_of_linkFree (hTree : disk.root.at? place = some tree)
    (hFree : tree.LinkFree) : path ∈ walkedPaths disk filter place ↔
      ∃ names, names ≠ [] ∧ "/".intercalate names = path ∧
        Kept (fun names => filter.skips ("/".intercalate names)) names ∧
        ∃ bytes modified, tree.at? names = some (.file bytes modified) := by
  rw [walkedPaths, List.mem_map]
  constructor
  · intro h
    obtain ⟨found, hFound, hPath⟩ := h
    obtain ⟨hNil, hFile, hKept⟩ := (mem_walk_iff_of_linkFree hTree hFree).1 hFound
    exact ⟨found.names, hNil, hPath, hKept, found.bytes, found.modified, hFile⟩
  · intro h
    obtain ⟨names, hNil, hPath, hKept, bytes, modified, hFile⟩ := h
    exact ⟨⟨names, bytes, modified⟩,
      (mem_walk_iff_of_linkFree hTree hFree).2 ⟨hNil, hFile, hKept⟩, hPath⟩

/-- In a tree without links an entry point is a candidate that is walked. -/
theorem entryPoints_eq_filter (hPlace : disk.IsDirectoryAt place)
    (hTree : disk.root.at? place = some tree) (hFree : tree.LinkFree) :
    Probe.entryPoints disk (pathOf place) plainFilter =
      Probe.entryPointCandidates.filter (walkedPaths disk plainFilter place).contains := by
  have hSrc : plainFilter.skips "src" = false := by decide +kernel
  apply List.filter_congr
  intro path hCandidate
  rw [Bool.eq_iff_iff, List.contains_iff_mem]
  constructor
  · intro hNamed
    exact (entryPoint_mem_walkedPaths_iff hPlace (List.mem_filter.2 ⟨hCandidate, hNamed⟩)).2
      fun _ => ⟨hSrc, not_leadsBack hTree hFree _⟩
  · intro hWalked
    obtain ⟨found, hFound, rfl⟩ := List.mem_map.1 hWalked
    obtain ⟨hNil, hFile, hKept, _⟩ := mem_walk_iff.1 hFound
    have hNamed := (mem_entryPoints_iff hPlace (isName_of_mem_walk hFound) hNil).2
      ⟨hCandidate, hKept _ List.prefix_rfl hNil, found.bytes, found.modified,
        below?_eq_some_iff.2 hFile⟩
    exact (List.mem_filter.1 hNamed).2

/-- Files that agree as far as they are kept make the same list. -/
theorem filter_eq_filter {files files' : List Found} {p : String → Bool}
    (hPaths : files.map relativePath = files'.map relativePath)
    (hSame : ∀ f ∈ files, ∀ f' ∈ files', relativePath f = relativePath f' →
      p (relativePath f) = true → f = f') :
    (files.filter fun f => p (relativePath f)) = files'.filter fun f => p (relativePath f) := by
  induction files generalizing files' with
  | nil =>
      have hNil : files' = [] := List.map_eq_nil_iff.1 hPaths.symm
      subst hNil
      rfl
  | cons f files ih =>
      cases files' with
      | nil => simp at hPaths
      | cons f' files' =>
          obtain ⟨hPath, hPaths⟩ := List.cons.inj hPaths
          have hRest := ih hPaths fun g hG g' hG' =>
            hSame g (List.mem_cons_of_mem _ hG) g' (List.mem_cons_of_mem _ hG')
          cases hKept : p (relativePath f) with
          | false =>
              rw [List.filter_cons_of_neg (by simp [hKept]), hRest,
                List.filter_cons_of_neg (by simp [← hPath, hKept])]
          | true =>
              have hFile := hSame f List.mem_cons_self f' List.mem_cons_self hPath hKept
              subst hFile
              simp [hKept, hRest]

/-- Two surveys differ at most in where the project is and what it is called. -/
structure SameButName (survey survey' : Survey) : Prop where
  records : survey.records = survey'.records
  summary : { survey.summary with
    name := survey'.summary.name, rootPath := survey'.summary.rootPath } = survey'.summary
  context : { survey.context with overview := survey'.context.overview } = survey'.context
  overview : ∃ rest,
    survey.context.overview = "# Project Analysis: " ++ survey.summary.name ++ rest ∧
    survey'.context.overview = "# Project Analysis: " ++ survey'.summary.name ++ rest

/-- Summaries that differ in name and root at most give contexts that do not differ in more. -/
theorem sameButName_of_eq {records : List Record} {s s' : Summary} {thresholds : Thresholds}
    {timestamp : Timestamp} (h : { s with name := s'.name, rootPath := s'.rootPath } = s') :
    SameButName ⟨records, s, Context.synthesize records s thresholds timestamp⟩
      ⟨records, s', Context.synthesize records s' thresholds timestamp⟩ := by
  obtain ⟨rest, hRest⟩ := Report.overview_eq records s thresholds.overview
  have hOverview : Report.overview records s thresholds.overview =
      "# Project Analysis: " ++ s.name ++ rest := hRest s.name s.rootPath
  have hOverview' := hRest s'.name s'.rootPath
  rw [h] at hOverview'
  refine ⟨rfl, h, ?_, rest, ?_, ?_⟩
  · simp only [Context.synthesize]
    rw [← h]
  · simpa only [Context.synthesize] using hOverview
  · simpa only [Context.synthesize] using hOverview'

/-- The manifests at the top of a tree, as bytes. -/
def manifests (tree : Entry) (e : Ecosystem) : Option (List UInt8) :=
  (tree.at? [e.manifestName]).bind Entry.bytes?

/-- The dependencies of a root are those of the manifests in its tree. -/
theorem collect_pathOf (hPlace : disk.IsDirectoryAt place)
    (hTree : disk.root.at? place = some tree) (hFree : tree.LinkFree) :
    Manifest.collect disk (pathOf place) = .ofList (Ecosystem.all.flatMap fun e =>
      Manifest.dependenciesIn e (manifests tree e)) := by
  rw [Manifest.collect_eq]
  congr 1
  apply List.flatMap_congr
  intro e _
  have hName : ∀ name ∈ [e.manifestName], IsName name := by
    cases e <;> decide
  have hFind := find?_join_pathOf hPlace hName (by simp)
  rw [String.intercalate_singleton, below?_eq_at? hTree hFree] at hFind
  rw [hFind, manifests]

/-- Rules that leave out nothing more than by default, and texts in no language, see of a tree
without links only the walked paths, the files in known languages and the manifests. -/
theorem ofPlace_sameButName {rules : Rules} {thresholds : Thresholds} {timestamp : Timestamp}
    (hPlace : disk.IsDirectoryAt place) (hPlace' : disk'.IsDirectoryAt place')
    (hTree : disk.root.at? place = some tree) (hTree' : disk'.root.at? place' = some tree')
    (hFree : tree.LinkFree) (hFree' : tree'.LinkFree)
    (hFilter : rules.filter = plainFilter) (hText : rules.includeTextFiles = false)
    (hPaths : walkedPaths disk plainFilter place = walkedPaths disk' plainFilter place')
    (hFiles : ∀ f ∈ walk disk plainFilter place, ∀ f' ∈ walk disk' plainFilter place',
      relativePath f = relativePath f' → (Language.ofPath (relativePath f)).isKnown = true →
        f.bytes = f'.bytes ∧ f.modified = f'.modified)
    (hManifests : ∀ e, manifests tree e = manifests tree' e) :
    SameButName (ofPlace disk place rules thresholds timestamp)
      (ofPlace disk' place' rules thresholds timestamp) := by
  have hAccepted : ((walk disk plainFilter place).filter fun f => rules.accepts (relativePath f)) =
      (walk disk' plainFilter place').filter fun f => rules.accepts (relativePath f) := by
    apply filter_eq_filter hPaths
    intro f hF f' hF' hPath hAccepts
    have hNames := names_eq_of_relativePath_eq hF hF' hPath
    have hKnown : (Language.ofPath (relativePath f)).isKnown = true := by
      simp only [Rules.accepts, hText, Bool.false_or, Bool.and_eq_true] at hAccepts
      exact hAccepts.2
    obtain ⟨hBytes, hModified⟩ := hFiles f hF f' hF' hPath hKnown
    cases f
    cases f'
    simp_all
  have hDependencies : Manifest.collect disk (pathOf place) =
      Manifest.collect disk' (pathOf place') := by
    rw [collect_pathOf hPlace hTree hFree, collect_pathOf hPlace' hTree' hFree', funext hManifests]
  have hEntryPoints : Probe.entryPoints disk (pathOf place) plainFilter =
      Probe.entryPoints disk' (pathOf place') plainFilter := by
    rw [entryPoints_eq_filter hPlace hTree hFree, entryPoints_eq_filter hPlace' hTree' hFree',
      hPaths]
  rw [walkedPaths, walkedPaths] at hPaths
  simp only [ofPlace_def, hFilter, hAccepted, hPaths]
  apply sameButName_of_eq
  simp only [Summary.aggregate, hDependencies, hEntryPoints]

/-- What becomes of two surveys is the same but for the name, or both fail in the same way. -/
def SameOutcome : Except Failure Survey → Except Failure Survey → Prop
  | .ok survey, .ok survey' => SameButName survey survey'
  | .error e, .error e' => e = e'
  | _, _ => False

/-- Two trees have the same files where nothing is skipped, those in known languages with the same
content and time. -/
structure KeptAlike (tree tree' : Entry) : Prop where
  files : ∀ names, Kept (fun names => plainFilter.skips ("/".intercalate names)) names →
    ((∃ bytes modified, tree.at? names = some (.file bytes modified)) ↔
      ∃ bytes modified, tree'.at? names = some (.file bytes modified))
  known : ∀ names, Kept (fun names => plainFilter.skips ("/".intercalate names)) names →
    (Language.ofPath ("/".intercalate names)).isKnown = true →
    ∀ bytes modified bytes' modified', tree.at? names = some (.file bytes modified) →
      tree'.at? names = some (.file bytes' modified') → bytes = bytes' ∧ modified = modified'

/-- Trees that are alike where nothing is skipped have the same paths walked. -/
theorem KeptAlike.walkedPaths_eq (h : KeptAlike tree tree')
    (hTree : disk.root.at? place = some tree) (hTree' : disk'.root.at? place' = some tree')
    (hFree : tree.LinkFree) (hFree' : tree'.LinkFree) :
    walkedPaths disk plainFilter place = walkedPaths disk' plainFilter place' := by
  have hMem (path : String) : path ∈ walkedPaths disk plainFilter place ↔
      path ∈ walkedPaths disk' plainFilter place' := by
    rw [mem_walkedPaths_iff_of_linkFree hTree hFree, mem_walkedPaths_iff_of_linkFree hTree' hFree']
    apply exists_congr
    intro names
    rw [and_congr_right (h.files names)]
  have hPerm := (List.perm_ext_iff_of_nodup (walkedPaths_nodup disk plainFilter place)
    (walkedPaths_nodup disk' plainFilter place')).2 hMem
  exact hPerm.eq_of_pairwise (fun _ _ _ _ hBefore hAfter => absurd hAfter hBefore.asymm)
    (walkedPaths_pairwise disk plainFilter place) (walkedPaths_pairwise disk' plainFilter place')

/-- The survey of a tree without links depends on the walked paths, on the content and time of the
files in known languages and on the manifests, and on nothing else of the tree or of the place where
it is, but for the name of the project. Hence nothing that is skipped and no content of a text in no
language has any effect. -/
theorem run_sameOutcome {root root' : String} {config : Config} {timestamp : Timestamp}
    (hPlace : rootPlace disk root = .ok place) (hPlace' : rootPlace disk' root' = .ok place')
    (hTree : disk.root.at? place = some tree) (hTree' : disk'.root.at? place' = some tree')
    (hFree : tree.LinkFree) (hFree' : tree'.LinkFree)
    (hNames : config.ignoreNames = []) (hExcluded : config.excludedPaths = [])
    (hText : config.includeTextFiles = false)
    (hManifests : ∀ e, manifests tree e = manifests tree' e) :
    (walkedPaths disk plainFilter place = walkedPaths disk' plainFilter place' →
      (∀ f ∈ walk disk plainFilter place, ∀ f' ∈ walk disk' plainFilter place',
        relativePath f = relativePath f' → (Language.ofPath (relativePath f)).isKnown = true →
          f.bytes = f'.bytes ∧ f.modified = f'.modified) →
      SameOutcome (run disk root config timestamp) (run disk' root' config timestamp)) ∧
    (KeptAlike tree tree' →
      SameOutcome (run disk root config timestamp) (run disk' root' config timestamp)) := by
  have hSame (hPaths : walkedPaths disk plainFilter place = walkedPaths disk' plainFilter place')
      (hFiles : ∀ f ∈ walk disk plainFilter place, ∀ f' ∈ walk disk' plainFilter place',
        relativePath f = relativePath f' → (Language.ofPath (relativePath f)).isKnown = true →
          f.bytes = f'.bytes ∧ f.modified = f'.modified) :
      SameOutcome (run disk root config timestamp) (run disk' root' config timestamp) := by
    cases hRules : Rules.ofConfig config with
    | error fault =>
        rw [run_of_fault hPlace hRules, run_of_fault hPlace' hRules]
        exact rfl
    | ok rules =>
        rw [run_of_rules hPlace hRules, run_of_rules hPlace' hRules]
        obtain ⟨hWith, _, _, hInclude⟩ := Rules.ofConfig_eq_ok_iff.1 hRules
        have hFilter : rules.filter = plainFilter := by
          rw [hNames, hExcluded] at hWith
          exact (Except.ok.inj hWith).symm
        exact ofPlace_sameButName (rootPlace_eq_ok_iff.1 hPlace).2 (rootPlace_eq_ok_iff.1 hPlace').2
          hTree hTree' hFree hFree' hFilter (hInclude.symm.trans hText) hPaths hFiles hManifests
  refine ⟨hSame, ?_⟩
  intro hKept
  apply hSame (hKept.walkedPaths_eq hTree hTree' hFree hFree')
  intro f hF f' hF' hPath hKnown
  have hSameNames := names_eq_of_relativePath_eq hF hF' hPath
  obtain ⟨_, hFile, hKeptNames⟩ := (mem_walk_iff_of_linkFree hTree hFree).1 hF
  obtain ⟨_, hFile', _⟩ := (mem_walk_iff_of_linkFree hTree' hFree').1 hF'
  rw [← hSameNames] at hFile'
  exact hKept.known f.names hKeptNames hKnown _ _ _ _ hFile hFile'

/-- A small program with a package below it. -/
def programWithPackage : Entry :=
  .directory [("README.md", .file [35] .epoch), ("main.py", .file [120, 61, 49] .epoch),
    ("node_modules", .directory [("x.js", .file [49] .epoch)])]

/-- The same program with another text and without the package. -/
def bareProgram : Entry :=
  .directory [("README.md", .file [] .epoch), ("main.py", .file [120, 61, 49] .epoch)]

def diskOfProgram : Disk where
  entries := [("repo", programWithPackage)]
  wellFormed := by
    simp only [programWithPackage, Entry.WellFormed, AllWellFormed]
    decide +kernel

def diskOfBareProgram : Disk where
  entries := [(".git", .directory [("target", bareProgram)])]
  wellFormed := by
    simp only [bareProgram, Entry.WellFormed, AllWellFormed]
    decide +kernel

theorem moved_program_sameOutcome :
    SameOutcome (run diskOfProgram "/repo" {} .epoch)
      (run diskOfBareProgram "/.git/target" {} .epoch) := by
  have hFree : programWithPackage.LinkFree := by
    simp [programWithPackage, Entry.linkFree_directory, Entry.linkFree_file]
  have hFree' : bareProgram.LinkFree := by
    simp [bareProgram, Entry.linkFree_directory, Entry.linkFree_file]
  have hPlace : rootPlace diskOfProgram "/repo" = .ok ["repo"] := by decide +kernel
  have hPlace' : rootPlace diskOfBareProgram "/.git/target" = .ok [".git", "target"] := by
    decide +kernel
  refine (run_sameOutcome hPlace hPlace' rfl rfl hFree hFree' rfl rfl rfl ?_).1 ?_ ?_
  · intro e
    cases e <;> decide
  · decide +kernel
  · decide +kernel

end Survey

end SourceSurvey
