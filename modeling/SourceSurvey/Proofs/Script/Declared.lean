import SourceSurvey.Proofs.Script.Name
import SourceSurvey.Proofs.Syntax.Query

/-!
The types and callables of a script are the names that a query captures. Sorted by where they begin they
are what a single pass over the tree finds, each once.
-/

namespace SourceSurvey.Script

open Syntax Syntax.Tree

/-! ### One pass over the tree -/

/-- The declarations whose names are types, and the kind of their names. -/
def typeDeclarations (dialect : Dialect) : List (Kind × Kind) :=
  if dialect.typed then
    [(.classDeclaration, .typeName), (.abstractClassDeclaration, .typeName),
      (.interfaceDeclaration, .typeName), (.typeAlias, .typeName), (.enumDeclaration, .identifier)]
  else [(.classDeclaration, .identifier)]

/-- The name of a type that is declared here. -/
def declaredType? (dialect : Dialect) (p : Place) : Option String :=
  match p.above with
  | parent :: _ =>
    if p.role = some .name && (typeDeclarations dialect).contains (parent.kind, p.kind) then
      some p.text
    else none
  | [] => none

/-- The name of a function or method that is declared here. -/
def callable? (p : Place) : Option String :=
  match p.above with
  | parent :: _ =>
    let holdsFunction := hasValue functionKinds parent
    let named : Bool := match parent.kind with
      | .functionDeclaration => p.role = some .name && p.kind = .identifier
      | .methodDefinition => p.role = some .name && p.kind = .propertyName
      | .declarator => p.role = some .name && p.kind = .identifier && holdsFunction
      | .pair => p.role = some .key && p.kind = .propertyName && holdsFunction
      | _ => false
    if named then some p.text else none
  | [] => none

/-! ### What the grammar builds -/

/-- The phrases that are one tree each. -/
def Phrase.single : Phrase → Bool
  | expression | operand | chain | atom | arrow | construction | function | arguments | element =>
    true
  | _ => false

/-- What is known of how many trees are added. -/
def counts : Rule.Counts Terminal Phrase := ⟨Terminal.solid, Phrase.single⟩

theorem counted_shape (dialect : Dialect) : (shape dialect).Counted (fun _ => True) counts where
  solid := rfl
  leaf := fun _ => trivial
  rule := by
    intro phrase
    cases dialect <;> cases phrase <;> decide

/-- No phrase leaves a value to those that refer to it. -/
theorem inRole_value (dialect : Dialect) (phrase : Phrase) :
    (Form.ofPhrase dialect phrase).inRole .value = [] := by
  cases dialect <;> cases phrase <;> rfl

/-- Variables and properties have their value at the end. -/
theorem holdsAll_lastInRole (dialect : Dialect) (phrase : Phrase) :
    ∀ kind ∈ [Kind.declarator, .pair], ∀ maker ∈ (Form.ofPhrase dialect phrase).makers kind,
      maker.holdsAll (Rule.lastInRole counts .value) = true := by
  cases dialect <;> cases phrase <;> decide

variable {dialect : Dialect} {t : Tree}

theorem Fits.lastInRole (hFits : Fits dialect t) {kind : Kind}
    (hKind : kind ∈ [Kind.declarator, .pair]) :
    t.ChildrenFit kind (LastInRole .value) := by
  have hFitting : ∀ phrase, ∀ maker ∈ (Form.ofPhrase dialect phrase).makers kind,
      (shape dialect).Fitting (LastInRole .value) maker := fun phrase maker hMaker =>
    Shape.fitting_lastInRole (counted_shape dialect) (inRole_value dialect)
      (holdsAll_lastInRole dialect phrase kind hKind maker hMaker)
  have hProgram : Kind.program ≠ kind := by
    rintro rfl
    exact absurd hKind (by decide)
  exact Shape.Derives.childrenFit hFits (counted_shape dialect) (fun _ => lastInRole_nil _)
    hFitting hProgram rfl rfl

/-! ### What is captured -/

/-- The patterns for types are those for names in certain declarations. -/
theorem typePatterns_eq (dialect : Dialect) :
    typePatterns dialect = namePatterns (typeDeclarations dialect) := by
  cases dialect <;> rfl

/-- The traversal finds a type where the query captures it. -/
theorem declaredType?_eq (dialect : Dialect) (c parent : Tree) (above : List Tree) :
    declaredType? dialect ⟨c, parent :: above⟩ =
      if (typePatterns dialect).any (·.captures? parent ⟨c, parent :: above⟩) then some c.text
      else none := by
  rw [typePatterns_eq, any_captures?_namePatterns]
  rfl

/-- And a callable where one of the patterns captures it. -/
theorem callable?_eq (c parent : Tree) (above : List Tree) :
    callable? ⟨c, parent :: above⟩ =
      if callablePatterns.any (·.captures? parent ⟨c, parent :: above⟩) then some c.text
      else none := by
  simp only [callable?, callablePatterns, Pattern.captures?, Place.text]
  split <;> simp_all

/-- Types come in the order in which they stand, which is that of the traversal. -/
theorem reports_types (hFits : Fits dialect t) :
    Reports (captured (typePatterns dialect) t)
      ((t.places []).filterMap (declaredType? dialect)) := by
  refine reports_captured hFits.legible (fun _ => rfl) (declaredType?_eq dialect) ?_ ?_ ?_ ?_
  · cases dialect <;> decide
  · cases dialect <;> decide
  · cases dialect <;> decide
  · intro pattern hPattern hValue
    rw [typePatterns_eq] at hPattern
    obtain ⟨pair, _, rfl⟩ := List.mem_map.1 hPattern
    cases hValue

/-- The names of callables do, too, also of those that a value makes callable. -/
theorem reports_callables (hFits : Fits dialect t) :
    Reports (captured callablePatterns t) ((t.places []).filterMap callable?) := by
  refine reports_captured hFits.legible (fun _ => rfl) callable?_eq (by decide) (by decide)
    (by decide) ?_
  intro pattern hPattern hValue
  have hKind : pattern.node ∈ [Kind.declarator, .pair] := by
    revert hValue
    revert pattern
    decide
  exact hFits.lastInRole hKind

theorem types_eq_filterMap (hFits : Fits dialect t) :
    (facts dialect t).types = (t.places []).filterMap (declaredType? dialect) :=
  (reports_types hFits).sorted (.refl _)

theorem callables_eq_filterMap (hFits : Fits dialect t) :
    (facts dialect t).callables = (t.places []).filterMap callable? :=
  (reports_callables hFits).sorted (.refl _)

end SourceSurvey.Script
