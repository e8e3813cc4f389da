import SourceSurvey.Context
import SourceSurvey.Proofs.Ranking
import Mathlib.Data.List.Forall2

/-!
The lists of complex files in a context. Each of them is the beginning of the one ranking of all
records, whatever the thresholds are, so no two of them contradict each other.
-/

namespace SourceSurvey

namespace Record

/-- All records, the highest score first. Records with the same score stay in order. -/
abbrev ranking (records : List Record) : List Record := ranked complexity records

/-- The list holds the records above the threshold, the highest score first, and those with the same
score in order. -/
structure Ranks (records : List Record) (threshold : Nat) (list : List Record) : Prop where
  above : list.Perm (records.filter (threshold < ·.complexity))
  falling : Falling complexity list
  stable : ∀ score, list.filter (·.complexity = score) =
    (records.filter (threshold < ·.complexity)).filter (·.complexity = score)

/-- The records above a threshold are ranked by their scores, those with the same score in order. -/
theorem ranks_rankedAbove (records : List Record) (threshold : Nat) :
    Ranks records threshold (rankedAbove records threshold) where
  above := ranked_perm complexity _
  falling := falling_ranked complexity _
  stable := filter_ranked complexity _

/-- The records above a threshold are the first of the ranking. -/
theorem rankedAbove_eq_take (records : List Record) (threshold : Nat) :
    rankedAbove records threshold =
      (ranking records).take (records.countP (threshold < ·.complexity)) :=
  ranked_above records threshold

/-- A higher threshold cuts the ranking off earlier. -/
theorem rankedAbove_prefix (records : List Record) {threshold threshold' : Nat}
    (h : threshold ≤ threshold') : rankedAbove records threshold' <+: rankedAbove records threshold := by
  rw [rankedAbove_eq_take, rankedAbove_eq_take, List.prefix_take_iff]
  refine ⟨List.take_prefix _ _, Nat.le_trans (List.length_take_le _ _) (List.countP_mono_left ?_)⟩
  intro r _ hAbove
  simp only [decide_eq_true_eq] at hAbove ⊢
  omega

/-- The paths of the first records of the ranking, as many as there are above the threshold, but not
more than the limit. -/
def topPaths (records : List Record) (threshold limit : Nat) : List String :=
  ((ranking records).take (min limit (records.countP (threshold < ·.complexity)))).map (·.path)

theorem map_path_take_rankedAbove (records : List Record) (threshold limit : Nat) :
    ((rankedAbove records threshold).take limit).map (·.path) = topPaths records threshold limit := by
  rw [rankedAbove_eq_take, List.take_take, topPaths]

/-- The paths of any view are the first of the ranking. -/
theorem topPaths_prefix (records : List Record) (threshold limit : Nat) :
    topPaths records threshold limit <+: (ranking records).map (·.path) :=
  (List.take_prefix _ _).map _

/-- The record of an empty file. -/
def ofEmptyFile (path : String) (language : Language) : Record where
  path := path
  size := 0
  lineCount := 0
  fileType := ""
  language := language
  imports := []
  types := []
  callables := []
  exports := []
  tags := []
  complexity := 0
  status := .heuristic
  modified := none

end Record

/-- An overview is that of a project without records, with the lines of its files behind. -/
theorem Report.overview_eq_append (records : List Record) (s : Summary) (threshold : Nat) :
    overview records s threshold = overview [] s 0 ++
      ofLines (((Record.rankedAbove records threshold).take 10).flatMap recordLines) := by
  have hNone : Record.rankedAbove [] 0 = [] := List.mergeSort_nil
  simp only [overview, overviewLines, hNone, ofLines, List.map_append, String.join_append,
    List.take_nil, List.flatMap_nil, List.map_nil, String.join_nil, String.append_empty]

namespace Report

/-- The line is the first of those about a file. -/
def isItem (line : String) : Bool := ['-', ' '].isPrefixOf line.toList

/-- The line prints the path of a file in bold type. -/
def PrintsPath (path line : String) : Prop := ∃ rest, line = "- **" ++ path ++ "** (" ++ rest

/-- One line of a listed record is its item, and prints its path. -/
theorem filter_isItem_recordLines (r : Record) :
    ∃ line, (recordLines r).filter isItem = [line] ∧ PrintsPath r.path line := by
  let about := r.language.name ++ ", " ++ toString r.lineCount ++ " lines, complexity: " ++
    toString r.complexity ++ ")"
  let patterns := ", ".intercalate ((r.tags.take 3).map Tag.display)
  have hItem : isItem ("- **" ++ r.path ++ "** (" ++ about) = true := by
    simp only [isItem, String.toList_append, List.append_assoc]
    rfl
  have hDetail : isItem ("  - Key patterns: " ++ patterns) = false := by
    simp only [isItem, String.toList_append]
    rfl
  have hLines : recordLines r = ("- **" ++ r.path ++ "** (" ++ about) ::
      if r.tags.isEmpty then [] else ["  - Key patterns: " ++ patterns] := by
    simp only [recordLines, about, patterns, String.append_assoc]
  refine ⟨"- **" ++ r.path ++ "** (" ++ about, ?_, about, rfl⟩
  rw [hLines, List.filter_cons_of_pos hItem]
  split
  · rfl
  · rw [List.filter_cons_of_neg (by simp [hDetail]), List.filter_nil]

/-- Of the lines about some files, the first of each file print their paths in turn. -/
theorem forall₂_printsPath (records : List Record) : List.Forall₂ PrintsPath (records.map (·.path))
    ((records.flatMap recordLines).filter isItem) := by
  induction records with
  | nil => exact .nil
  | cons r records ih =>
      obtain ⟨line, hLine, hPrints⟩ := filter_isItem_recordLines r
      rw [List.map_cons, List.flatMap_cons, List.filter_append, hLine]
      exact .cons hPrints ih

end Report

namespace Context

/-- The records above a threshold come with the highest score first, stably, and a higher threshold
only cuts off the end of the list. The key components, the critical files and the files of the
overview of any context are the beginnings of one ranking, so of any two of these lists one begins
with the other; and the overview prints their paths in this order. -/
theorem views_of_ranking (records : List Record) :
    (∀ threshold, Record.Ranks records threshold (Record.rankedAbove records threshold)) ∧
    (∀ threshold threshold', threshold ≤ threshold' →
      Record.rankedAbove records threshold' <+: Record.rankedAbove records threshold) ∧
    ∀ (s : Summary) (thresholds : Thresholds) (timestamp : Timestamp),
      let c := synthesize records s thresholds timestamp
      ∃ listed : List Record,
        c.overview = Report.overview [] s 0 ++ Report.ofLines (listed.flatMap Report.recordLines) ∧
        c.keyComponents.map (·.path) = Record.topPaths records thresholds.keyComponent 15 ∧
        c.criticalFiles = Record.topPaths records thresholds.critical 10 ∧
        listed.map (·.path) = Record.topPaths records thresholds.overview 10 ∧
        List.Forall₂ Report.PrintsPath (Record.topPaths records thresholds.overview 10)
          ((listed.flatMap Report.recordLines).filter Report.isItem) ∧
        ∀ view ∈ [c.keyComponents.map (·.path), c.criticalFiles, listed.map (·.path)],
          view <+: (Record.ranking records).map (·.path) ∧
          ∀ other ∈ [c.keyComponents.map (·.path), c.criticalFiles, listed.map (·.path)],
            view <+: other ∨ other <+: view := by
  refine ⟨Record.ranks_rankedAbove records, fun _ _ => Record.rankedAbove_prefix records,
    fun s thresholds timestamp => ?_⟩
  intro c
  have hKey : c.keyComponents.map (·.path) = Record.topPaths records thresholds.keyComponent 15 := by
    rw [← Record.map_path_take_rankedAbove]
    exact List.map_map
  have hCritical : c.criticalFiles = Record.topPaths records thresholds.critical 10 :=
    Record.map_path_take_rankedAbove records thresholds.critical 10
  have hListed := Record.map_path_take_rankedAbove records thresholds.overview 10
  have hOverview : c.overview = Report.overview records s thresholds.overview := by
    simp only [c, synthesize]
  rw [Report.overview_eq_append] at hOverview
  refine ⟨(Record.rankedAbove records thresholds.overview).take 10, hOverview, hKey, hCritical,
    hListed, hListed ▸ Report.forall₂_printsPath _, ?_⟩
  rw [hKey, hCritical, hListed]
  have hPrefix : ∀ view ∈ [Record.topPaths records thresholds.keyComponent 15,
      Record.topPaths records thresholds.critical 10, Record.topPaths records thresholds.overview 10],
      view <+: (Record.ranking records).map (·.path) := by
    simp only [List.forall_mem_cons, Record.topPaths_prefix, List.not_mem_nil, false_implies,
      implies_true, and_true]
  exact fun view hView => ⟨hPrefix view hView, fun other hOther =>
    List.prefix_or_prefix_of_prefix (hPrefix view hView) (hPrefix other hOther)⟩

theorem views_of_ranking_tie :
    let scored := fun path score => { Record.ofEmptyFile path .python with complexity := score }
    let records := [scored "x.py" 50, scored "y.py" 60, scored "z.py" 50]
    25 ≤ 50 ∧ Record.rankedAbove records 50 <+: Record.rankedAbove records 25 ∧
      (Record.rankedAbove records 50).map (·.path) = ["y.py"] ∧
      (Record.rankedAbove records 25).map (·.path) = ["y.py", "x.py", "z.py"] := by
  intro scored records
  obtain ⟨_, hPrefix, _⟩ := views_of_ranking records
  refine ⟨by decide, hPrefix 25 50 (by decide), ?_, ?_⟩
  · simp [Record.rankedAbove, records, scored, Record.ofEmptyFile]
  · simp [Record.rankedAbove, records, scored, Record.ofEmptyFile, List.mergeSort]

end Context

end SourceSurvey
