import SourceSurvey.Extraction
import SourceSurvey.Proofs.Syntax.Fault

/-!
What is said of a text with a fault: the line on which the first fault of its tree begins.
-/

namespace SourceSurvey.Analyzer

open Syntax Syntax.Tree

/-- The line on which a part begins in the text of a tree, counted from one. -/
def lineOf (t : Tree) (p : Located) : Nat := (t.source.take p.start).count '\n' + 1

/-- A tree is marked as having a fault exactly if one of its parts is one, and passing over the
parts that are not marked finds the first of them in document order. So there always is a line to
report, and it is the one on which that part begins. -/
theorem first_fault_reported (t : Tree) :
    (∀ before, t.hasFault = (t.located before).any (·.tree.isFault)) ∧
    (∀ before, t.firstFault? before = (t.located before).find? (·.tree.isFault)) ∧
    (t.hasFault = true → ∃ p, (t.located []).find? (·.tree.isFault) = some p ∧
      p.tree.text.toList <+: t.source.drop p.start ∧ t.faultLine? = some (lineOf t p) ∧
      ∀ (a : Analyzer) (content : String), a.parse content = t →
        a.facts content = .failedAt (lineOf t p)) := by
  refine ⟨fun before => hasFault_eq_any before t, fun before => firstFault?_eq_find? before t, ?_⟩
  intro hFault
  obtain ⟨p, hFirst⟩ := exists_find?_of_hasFault hFault []
  have hMem := List.mem_of_find?_eq_some hFirst
  have hLine : t.faultLine? = some (lineOf t p) := by
    rw [faultLine?, firstFault?_eq_find?, hFirst, Option.map_some, line_of_mem_located hMem, lineOf]
  refine ⟨p, hFirst, text_prefix_of_mem_located hMem, hLine, ?_⟩
  intro a content hTree
  simp only [facts, hTree, hFault, if_true, hLine, Option.getD_some]

/-- The second line does not close its bracket. -/
theorem first_fault_reported_bracket :
    let t := python.parse "x = 1\ndef f(:\n  y\n"
    t.hasFault = true ∧ ∃ p, (t.located []).find? (·.tree.isFault) = some p ∧
      python.facts "x = 1\ndef f(:\n  y\n" = .failedAt 2 ∧ lineOf t p = 2 := by
  intro t
  have hFault : t.hasFault = true := by decide +kernel
  have hSecond : t.faultLine? = some 2 := by decide +kernel
  obtain ⟨p, hFirst, _, hLine, hFacts⟩ := (first_fault_reported t).2.2 hFault
  have hNumber : lineOf t p = 2 := Option.some.inj (hLine.symm.trans hSecond)
  exact ⟨hFault, p, hFirst, hNumber ▸ hFacts python _ rfl, hNumber⟩

end SourceSurvey.Analyzer
