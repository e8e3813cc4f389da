import SourceSurvey.Proofs.Script.Leaf
import SourceSurvey.Proofs.Syntax.Query
import SourceSurvey.Script.Facts

/-!
The names that a script declares are on one line each.
-/

namespace SourceSurvey.Script

open Syntax
open Text (OneLine)

/-! ### Trees -/

/-- The rules for scripts, with leaves of any text that a terminal can stand for. -/
def shape (dialect : Dialect) : Shape Terminal Phrase where
  rule := Form.ofPhrase dialect
  solid := Terminal.solid
  leaf := Terminal.Leaf

/-- The tree fits the grammar: statements one after the other, of leaves of any text and with anything
between them. -/
def Fits (dialect : Dialect) (t : Tree) : Prop :=
  (shape dialect).Derives (.optional (.terminal .interpreter)) (.call .statement) t

theorem shaped_grammar (dialect : Dialect) : (grammar dialect).Shaped Cursor.Exact (shape dialect) where
  rule := rfl
  read := fun terminal _ hC => Cursor.readsFitting_read dialect terminal hC

/-- Nodes have no kind of a name: names are leaves. -/
theorem uses_noName (dialect : Dialect) (phrase : Phrase) :
    (Form.ofPhrase dialect phrase).uses (fun _ => true) (fun _ => true) (· ∉ nameKinds) = true := by
  cases dialect <;> cases phrase <;> decide

/-- In a tree that fits the grammar names can be read off their leaves. -/
theorem Fits.legible {dialect : Dialect} {t : Tree} (h : Fits dialect t) : t.Legible := by
  have hMade : t.Made (fun kind text => text ≠ "" ∧ (kind ∈ nameKinds → OneLine text))
      (fun kind => decide (kind ∉ nameKinds) = true) :=
    Shape.Derives.made h (fun _ hLeaf => ⟨hLeaf.nonempty, hLeaf.oneLine⟩)
      (fun phrase _ => uses_noName dialect phrase) (by decide) rfl rfl
  exact hMade.imp (fun _ _ hLeaf => hLeaf) fun _ hNode => of_decide_eq_true hNode

/-- A tree without faults is one that has been read to the end. -/
theorem parseChars_eq_ok {dialect : Dialect} {content : String} {t : Tree}
    (hTree : parse dialect content = t) (hFault : t.hasFault = false) :
    parseChars dialect content.toList = .ok t := by
  rw [parse] at hTree
  cases hRead : parseChars dialect content.toList with
  | ok read =>
      simp only [hRead] at hTree
      rw [hTree]
  | error stop =>
      simp only [hRead] at hTree
      rw [← hTree] at hFault
      split at hFault
      · cases (Tree.hasFault_error _ _).symm.trans hFault
      · split at hFault
        · cases (Tree.hasFault_missing _ _).symm.trans hFault
        · cases (Tree.hasFault_error _ _).symm.trans hFault

/-- Texts without faults have trees that fit the grammar. -/
theorem fits_of_parse {dialect : Dialect} {content : String} {t : Tree}
    (hTree : parse dialect content = t) (hFault : t.hasFault = false) : Fits dialect t :=
  Grammar.derives_of_parse (shaped_grammar dialect) (Cursor.exact_ofChars _ _ _)
    (parseChars_eq_ok hTree hFault)

/-! ### Facts -/

/-- All that is captured as a type is a name. -/
theorem typePatterns_names (dialect : Dialect) :
    ∀ pattern ∈ typePatterns dialect, pattern.child ∈ nameKinds := by
  cases dialect <;> decide

/-- So the names of types and callables are on one line. -/
theorem oneLine_facts (dialect : Dialect) {t : Tree} (h : t.NamesOneLine) :
    (∀ name ∈ (facts dialect t).types, OneLine name) ∧
      ∀ name ∈ (facts dialect t).callables, OneLine name :=
  ⟨oneLine_of_mem_captured h (typePatterns_names dialect), oneLine_of_mem_captured h (by decide)⟩

end SourceSurvey.Script
