import SourceSurvey.Proofs.Python.Leaf
import SourceSurvey.Proofs.Syntax.Query
import SourceSurvey.Python.Facts

/-!
The names that a Python file declares are on one line each.
-/

namespace SourceSurvey.Python

open Syntax
open Text (OneLine)

/-- The rules for Python files, with leaves of any text that a terminal can stand for. -/
def shape : Shape Terminal Phrase where
  rule := Form.ofPhrase
  solid := Terminal.solid
  leaf := Terminal.Leaf

/-- The tree fits the grammar: statements one after the other, of leaves of any text and with anything
between them. -/
def Fits (t : Tree) : Prop := shape.Derives .empty (.call .statement) t

theorem shaped_grammar : grammar.Shaped Cursor.Exact shape where
  rule := rfl
  read := fun terminal _ hC => Cursor.readsFitting_read terminal hC

/-- Nodes have no kind of a name: names are leaves. -/
theorem uses_noName (phrase : Phrase) :
    (Form.ofPhrase phrase).uses (fun _ => true) (fun _ => true) (· ∉ nameKinds) = true := by
  cases phrase <;> decide

/-- In a tree that fits the grammar names can be read off their leaves. -/
theorem Fits.legible {t : Tree} (h : Fits t) : t.Legible := by
  have hMade : t.Made (fun kind text => text ≠ "" ∧ (kind ∈ nameKinds → OneLine text))
      (fun kind => decide (kind ∉ nameKinds) = true) :=
    Shape.Derives.made h (fun _ hLeaf => ⟨hLeaf.nonempty, hLeaf.oneLine⟩)
      (fun phrase _ => uses_noName phrase) (by decide) rfl rfl
  exact hMade.imp (fun _ _ hLeaf => hLeaf) fun _ hNode => of_decide_eq_true hNode

/-- A tree without faults is one that has been read to the end. -/
theorem parseChars_eq_ok {content : String} {t : Tree} (hTree : parse content = t)
    (hFault : t.hasFault = false) : parseChars content.toList = .ok t := by
  unfold parse at hTree
  cases hRead : parseChars content.toList with
  | ok read =>
      simp only [hRead] at hTree
      rw [hTree]
  | error stop =>
      simp only [hRead] at hTree
      rw [← hTree, Tree.hasFault_error] at hFault
      cases hFault

/-- Texts without faults have trees that fit the grammar. -/
theorem fits_of_parse {content : String} {t : Tree} (hTree : parse content = t)
    (hFault : t.hasFault = false) : Fits t :=
  Grammar.derives_of_parse shaped_grammar (Cursor.exact_ofChars _) (parseChars_eq_ok hTree hFault)

/-- So the names of types and callables are on one line. -/
theorem oneLine_facts {t : Tree} (h : t.NamesOneLine) :
    (∀ name ∈ (facts t).types, OneLine name) ∧ ∀ name ∈ (facts t).callables, OneLine name :=
  ⟨oneLine_of_mem_captured h (by decide), oneLine_of_mem_captured h (by decide)⟩

end SourceSurvey.Python
