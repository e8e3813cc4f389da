import SourceSurvey.Proofs.Syntax.Leaf
import SourceSurvey.Proofs.Text.Line
import SourceSurvey.Syntax.Fault

/-!
Names in syntax trees. A name is a leaf and on one line, so that its text is too.
-/

namespace SourceSurvey.Syntax

open Text (OneLine)

/-- The kinds of the leaves that names are read as. -/
def nameKinds : List Kind := [.identifier, .propertyName, .typeName]

/-- The names in the tree are leaves and each is on one line. -/
def Tree.NamesOneLine (t : Tree) : Prop :=
  t.Made (fun kind text => kind ∈ nameKinds → OneLine text) (· ∉ nameKinds)

/-- The leaves in the tree have texts, names are leaves, and each is on one line. -/
def Tree.Legible (t : Tree) : Prop :=
  t.Made (fun kind text => text ≠ "" ∧ (kind ∈ nameKinds → OneLine text)) (· ∉ nameKinds)

theorem Tree.Legible.namesOneLine {t : Tree} (h : t.Legible) : t.NamesOneLine :=
  h.imp (fun _ _ hLeaf => hLeaf.2) fun _ hNode => hNode

/-- The text of a part that is a name. -/
theorem Tree.NamesOneLine.oneLine_text {t : Tree} {above : List Tree} {p : Place}
    (h : t.NamesOneLine) (hP : p ∈ t.places above) (hKind : p.kind ∈ nameKinds) :
    OneLine p.text :=
  ((h.of_mem_places hP).leaf_of_kind (not_not_intro hKind)).1 hKind

/-! ### Faults -/

theorem Tree.hasFault_error (before after : List Char) :
    (faulty .error before after).hasFault = true := rfl

theorem Tree.hasFault_missing (before after : List Char) :
    (faulty .missing before after).hasFault = true := rfl

end SourceSurvey.Syntax
