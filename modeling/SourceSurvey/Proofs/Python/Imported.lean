import SourceSurvey.Proofs.Python.Defined

/-!
The imports of a Python file, statement by statement: each module that is imported, and of what is
imported from a module the first name behind the module's.
-/

namespace SourceSurvey.Python

open Syntax Syntax.Tree

/-! ### What statements import -/

/-- The module or name of one part of an import list, without the name that it gets. -/
inductive ModuleName : Tree → String → Prop where
  | plain {t : Tree} (hKind : t.kind = .dottedName) : ModuleName t t.text
  | renamed {t name : Tree} (hKind : t.kind = .aliasedImport)
      (hName : t.children.filter (·.role = some .name) = [name]) (hPlain : name.kind = .dottedName) :
      ModuleName t name.text

/-- The kinds of the statements that import. -/
def importKinds : List Kind := [.importStatement, .importFrom, .importFuture]

theorem ModuleName.kind_mem {t : Tree} {name : String} (h : ModuleName t name) :
    t.kind ∈ [Kind.dottedName, .aliasedImport] := by
  cases h with
  | plain hKind => exact hKind ▸ List.mem_cons_self
  | renamed hKind => exact hKind ▸ List.mem_cons_of_mem _ List.mem_cons_self

/-! ### What the grammar builds -/

variable {t : Tree}

/-- Import statements are read without other phrases, and hold no others. -/
theorem uses_import (phrase : Phrase) :
    ∀ kind ∈ importKinds, ∀ maker ∈ (Form.ofPhrase phrase).makers kind,
      maker.holdsAll (Rule.usesAll (fun _ => true) (fun _ => false)
        fun kind => !importKinds.contains kind) = true := by
  cases phrase <;> decide

/-! ### Names in import lists -/

section

variable (hFits : Fits t) {p : Place}
  (hP : p ∈ t.places [])
include hFits hP

end

/-! ### Statement by statement -/

section

variable {s q : Site}
  (hMade : MadeAll (fun kind _ => kind ∉ importKinds) (· ∉ importKinds) s.tree.children)
  (hQ : q ∈ s.below)
include hMade hQ

end

section

variable (hFits : Fits t) {s : Site}
  (hS : s ∈ t.sites 0 [])
include hFits hS

/-- No import statement is in another. -/
theorem madeAll_children (hKind : s.kind ∈ importKinds) :
    MadeAll (fun kind _ => kind ∉ importKinds) (· ∉ importKinds) s.tree.children := by
  have hOther : ∀ kind ∈ importKinds, kind ∉ .program :: leafKinds := by
    decide
  have hLeaf : ∀ kind ∈ leafKinds, kind ∉ importKinds := by
    decide
  have hUses : t.ChildrenFit s.kind (MadeAll (fun kind _ => kind ∈ leafKinds)
      fun kind => (!importKinds.contains kind) = true) :=
    hFits.childrenFit (fun phrase maker hMaker =>
      Shape.fitting_uses (fun _ hLeaf => counted_shape.leaf hLeaf) (fun _ h => by cases h)
        (uses_import phrase s.kind hKind maker hMaker)) (hOther _ hKind)
  refine ((hUses.of_mem_places (toPlace_mem_places hS)).fits_children rfl).imp ?_ ?_
  · exact fun kind _ => hLeaf kind
  · exact fun kind hNode => by simpa using hNode

end

end SourceSurvey.Python
