import SourceSurvey.Proofs.Python.Name
import SourceSurvey.Proofs.Syntax.Query

/-!
The types and callables of a Python file are the names of its class and function definitions: of each
definition one, in the order of where they begin.
-/

namespace SourceSurvey.Python

open Syntax Syntax.Tree

/-- The name that the parts of a node of some kind have. -/
def nameIn? (kind : Kind) (p : Place) : Option String :=
  match p.above with
  | parent :: _ =>
    if parent.kind = kind && p.role = some .name && p.kind = .identifier then some p.text else none
  | [] => none

theorem role_definitionPattern (kind : Kind) : (definitionPattern kind).role ≠ .value := nofun

theorem isSome_value_definitionPattern (kind : Kind) :
    (definitionPattern kind).value.isSome = true → False := nofun

/-! ### What the grammar builds -/

/-- The phrases that are one tree each. -/
def Phrase.single : Phrase → Bool
  | expression | operand | chain => true
  | _ => false

/-- What is known of how many trees are added. -/
def counts : Rule.Counts Terminal Phrase := ⟨Terminal.solid, Phrase.single⟩

theorem counted_shape : shape.Counted (· ∈ leafKinds) counts where
  solid := rfl
  leaf := fun hLeaf => hLeaf.kind_mem
  rule := by
    intro phrase
    cases phrase <;> decide

/-- The kinds of what is a name in nodes of some kinds. -/
def nameChildren : List (Kind × Kind) :=
  [(.classDefinition, .identifier), (.functionDefinition, .identifier),
    (.aliasedImport, .dottedName),
    (.importStatement, .dottedName), (.importStatement, .aliasedImport),
    (.importFrom, .dottedName), (.importFrom, .aliasedImport),
    (.importFuture, .dottedName), (.importFuture, .aliasedImport)]

theorem names_shape : shape.Names .name nameChildren Terminal.nameKind? where
  leaf := fun hLeaf _ hNamed => hLeaf.named hNamed
  apart := by
    intro phrase
    cases phrase <;> rfl
  rule := by
    intro phrase
    cases phrase <;> decide

variable {t : Tree}

theorem Fits.roleFits (hFits : Fits t) : t.RoleFits .name nameChildren :=
  Shape.Derives.roleFits hFits names_shape (by decide) rfl rfl

/-- Definitions have one name each, and so do imports under another name. -/
theorem holdsAll_oneInRole (phrase : Phrase) :
    ∀ kind ∈ [Kind.classDefinition, .functionDefinition, .aliasedImport],
      ∀ maker ∈ (Form.ofPhrase phrase).makers kind,
        maker.holdsAll (Rule.oneInRole counts .name) = true := by
  cases phrase <;> decide

/-- What the grammar's rules for nodes of a kind build is so in trees that fit it. -/
theorem Fits.childrenFit (hFits : Fits t) {kind : Kind} {fits : List Tree → Prop}
    (hFitting : ∀ phrase, ∀ maker ∈ (Form.ofPhrase phrase).makers kind, shape.Fitting fits maker)
    (hOther : kind ∉ .program :: leafKinds) : t.ChildrenFit kind fits :=
  Shape.Derives.childrenFit hFits counted_shape
    (fun hLeaf => absurd (List.mem_cons_of_mem _ hLeaf) hOther) hFitting
    (fun hProgram => hOther (hProgram ▸ List.mem_cons_self)) rfl rfl

/-- Definitions, and imports under another name, have one name. -/
theorem Fits.oneInRole (hFits : Fits t) {kind : Kind}
    (hKind : kind ∈ [Kind.classDefinition, .functionDefinition, .aliasedImport]) :
    t.ChildrenFit kind (OneInRole .name) := by
  have hOther : ∀ kind ∈ [Kind.classDefinition, .functionDefinition, .aliasedImport],
      kind ∉ .program :: leafKinds := by
    decide
  refine hFits.childrenFit (fun phrase maker hMaker => ?_) (hOther kind hKind)
  exact Shape.fitting_oneInRole counted_shape names_shape.apart
    (holdsAll_oneInRole phrase kind hKind maker hMaker)

/-! ### What is captured -/

/-- The traversal finds a name where the query captures it. -/
theorem nameIn?_eq (kind : Kind) (c parent : Tree) (above : List Tree) :
    nameIn? kind ⟨c, parent :: above⟩ =
      if [definitionPattern kind].any (·.captures? parent ⟨c, parent :: above⟩) then some c.text
      else none := by
  simp only [List.any_cons, List.any_nil, Bool.or_false, Pattern.captures?, definitionPattern,
    Option.all_none, Bool.and_true]
  rfl

/-- The names of definitions come in the order in which they stand, which is that of the
traversal. -/
theorem reports_captured_definitions (hFits : Fits t)
    (kind : Kind) :
    Reports (captured [definitionPattern kind] t) ((t.places []).filterMap (nameIn? kind)) := by
  refine reports_captured hFits.legible (fun _ => rfl) (nameIn?_eq kind) (List.nodup_singleton _)
    (List.forall_mem_singleton.2 (role_definitionPattern kind)) (List.forall_mem_singleton.2 ?_)
    (List.forall_mem_singleton.2 fun h => (isSome_value_definitionPattern kind h).elim)
  exact List.mem_cons_self

theorem types_eq_filterMap (hFits : Fits t) :
    (facts t).types = (t.places []).filterMap (nameIn? .classDefinition) :=
  (reports_captured_definitions hFits .classDefinition).sorted (.refl _)

theorem callables_eq_filterMap (hFits : Fits t) :
    (facts t).callables = (t.places []).filterMap (nameIn? .functionDefinition) :=
  (reports_captured_definitions hFits .functionDefinition).sorted (.refl _)

end SourceSurvey.Python
