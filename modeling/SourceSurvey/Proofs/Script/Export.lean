import SourceSurvey.Proofs.Script.Declared

/-!
Exported declarations. What a statement exports in a declaration of its own is also listed as a type
or callable, except for generators: these are exported but not listed.
-/

namespace SourceSurvey.Script

open Syntax Syntax.Tree

/-- The declarations of types and functions, and the kind of their names. -/
def declaredNames (dialect : Dialect) : List (Kind × Kind) :=
  typeDeclarations dialect ++
    [(.functionDeclaration, .identifier), (.generatorDeclaration, .identifier)]

/-! ### Names of declarations -/

theorem names_shape (dialect : Dialect) :
    (shape dialect).Names .name (declaredNames dialect) Terminal.nameKind? where
  leaf := fun hLeaf _ hNamed => hLeaf.named hNamed
  apart := by
    intro phrase
    cases dialect <;> cases phrase <;> decide
  -- the rules are looked through as they stand: a declaration with another name would fail here
  rule := by
    intro phrase
    cases dialect <;> cases phrase <;> decide

/-- The kind of a declaration settles the kind of its name. -/
theorem Fits.roleFits {dialect : Dialect} {t : Tree} (hFits : Fits dialect t) :
    t.RoleFits .name (declaredNames dialect) :=
  Shape.Derives.roleFits hFits (names_shape dialect) (by cases dialect <;> decide) rfl rfl

/-! ### Exported declarations -/

/-- A statement exports a declaration that it holds, and this has a name. -/
structure Declares (statement declaration name : Site) : Prop where
  exports : statement.kind = .exportStatement
  holds : statement.child? .declaration = some declaration
  named : declaration.child? .name = some name

variable {dialect : Dialect} {t : Tree} {statement declaration name : Site}

namespace Declares

theorem name_mem_children (h : Declares statement declaration name) : name ∈ declaration.children :=
  (Site.of_child?_eq_some h.named).1

theorem declaration_mem_sites (h : Declares statement declaration name)
    (hStatement : statement ∈ t.sites 0 []) : declaration ∈ t.sites 0 [] :=
  child_mem_sites (Site.of_child?_eq_some h.holds).1 hStatement

theorem name_mem_sites (h : Declares statement declaration name)
    (hStatement : statement ∈ t.sites 0 []) : name ∈ t.sites 0 [] :=
  child_mem_sites h.name_mem_children (h.declaration_mem_sites hStatement)

/-- Whatever an exported statement declares is exported. -/
theorem entry_mem_exportedAt (h : Declares statement declaration name) :
    name.entry ∈ exportedAt statement := by
  rw [exportedAt, h.exports]
  simp [exportedBy, h.holds, declaredNamesIn, h.named]

/-- The kind of a declaration settles the kind of its name. -/
theorem kinds_mem (h : Declares statement declaration name) (hFits : Fits dialect t)
    (hStatement : statement ∈ t.sites 0 [])
    (hKind : declaration.kind ∈ (declaredNames dialect).map (·.1)) :
    (declaration.kind, name.kind) ∈ declaredNames dialect := by
  obtain ⟨hChild, hRole⟩ := Site.of_child?_eq_some h.named
  have hDeclaration := toPlace_mem_places (h.declaration_mem_sites hStatement)
  exact (hFits.roleFits.of_mem_places hDeclaration).paired (tree_mem_children hChild) hRole hKind

/-- No pattern is for generators, and no other name begins where that of a generator does. -/
theorem start_ne_of_mem_captured (h : Declares statement declaration name)
    (hFits : Fits dialect t) (hStatement : statement ∈ t.sites 0 []) (hName : name.kind ∈ nameKinds)
    (hKind : declaration.kind = .generatorDeclaration) :
    ∀ entry ∈ captured (typePatterns dialect ++ callablePatterns) t, entry.1 ≠ name.start := by
  have hPatterns : ∀ pattern ∈ typePatterns dialect ++ callablePatterns,
      pattern.child ∈ nameKinds ∧ pattern.node ≠ .generatorDeclaration := by
    cases dialect <;> decide
  rintro _ hEntry hStart
  obtain ⟨s, hS, pattern, hPattern, c, hC, rfl⟩ := mem_captured.1 hEntry
  obtain ⟨hChild, hNode, hCaptured⟩ := Pattern.of_mem_captures hC
  obtain ⟨hNamed, hOther⟩ := hPatterns pattern hPattern
  obtain rfl : c = name := eq_of_start_eq hFits.legible (child_mem_sites hChild hS)
    (h.name_mem_sites hStatement) (hCaptured ▸ hNamed) hName hStart
  have hAbove := (above_of_mem_children hChild).symm.trans
    (above_of_mem_children h.name_mem_children)
  have hSame : s.tree = declaration.tree := (List.cons.inj hAbove).1
  exact hOther (hNode.symm.trans ((congrArg Tree.kind hSame).trans hKind))

/-- All other names of declarations are captured. -/
theorem entry_mem_captured (h : Declares statement declaration name)
    (hStatement : statement ∈ t.sites 0 [])
    (hPair : (declaration.kind, name.kind) ∈ declaredNames dialect)
    (hKind : declaration.kind ≠ .generatorDeclaration) :
    name.entry ∈ captured (typePatterns dialect) t ∨ name.entry ∈ captured callablePatterns t := by
  obtain ⟨hChild, hRole⟩ := Site.of_child?_eq_some h.named
  have hDeclaration := h.declaration_mem_sites hStatement
  rcases List.mem_append.1 hPair with hType | hFunction
  · refine .inl (mem_captured.2 ⟨declaration, hDeclaration,
      ⟨declaration.kind, .name, name.kind, none⟩, ?_, name, ?_, rfl⟩)
    · rw [typePatterns_eq]
      exact List.mem_map.2 ⟨_, hType, rfl⟩
    · exact Pattern.mem_captures rfl rfl hChild hRole rfl
  · obtain ⟨hNode, hName⟩ : declaration.kind = .functionDeclaration ∧ name.kind = .identifier := by
      simpa [hKind] using hFunction
    refine .inr (mem_captured.2 ⟨declaration, hDeclaration,
      ⟨.functionDeclaration, .name, .identifier, none⟩, List.mem_cons_self, name, ?_, rfl⟩)
    exact Pattern.mem_captures rfl hNode hChild hRole hName

end Declares

/-- Texts without faults have trees that fit the grammar. In any tree that fits it, every name that is
exported with a declaration of a type or function is also listed as one, except for that of a generator:
the name is exported all the same, but nothing that is listed as a type or callable begins there. -/
theorem facts_of_declares (dialect : Dialect) :
    (∀ content, (parse dialect content).hasFault = false → Fits dialect (parse dialect content)) ∧
    ∀ {t : Tree} {statement declaration name : Site}, Fits dialect t →
      statement ∈ t.sites 0 [] → Declares statement declaration name →
      declaration.kind ∈ (declaredNames dialect).map (·.1) →
        name ∈ t.sites 0 [] ∧ name.entry ∈ exportedAt statement ∧
        name.text ∈ (facts dialect t).exports ∧
        (declaration.kind ≠ .generatorDeclaration →
          name.text ∈ (facts dialect t).types ∨ name.text ∈ (facts dialect t).callables) ∧
        (declaration.kind = .generatorDeclaration →
          ∀ entry ∈ captured (typePatterns dialect ++ callablePatterns) t,
            entry.1 ≠ name.start) := by
  refine ⟨fun content hFault => fits_of_parse rfl hFault, ?_⟩
  intro t statement declaration name hFits hStatement h hKind
  have hPair := h.kinds_mem hFits hStatement hKind
  have hExported : name.text ∈ (facts dialect t).exports :=
    mem_inSourceOrder.2 ⟨name.start, List.mem_flatMap.2 ⟨statement, hStatement, h.entry_mem_exportedAt⟩⟩
  refine ⟨h.name_mem_sites hStatement, h.entry_mem_exportedAt, hExported, fun hOther => ?_,
    h.start_ne_of_mem_captured hFits hStatement ?_⟩
  · exact (h.entry_mem_captured hStatement hPair hOther).imp
      (fun hType => mem_inSourceOrder.2 ⟨_, hType⟩)
      (fun hCallable => mem_inSourceOrder.2 ⟨_, hCallable⟩)
  · have hNames : ∀ pair ∈ declaredNames dialect, pair.2 ∈ nameKinds := by
      cases dialect <;> decide
    exact hNames _ hPair

/-- Some statement exports a declaration of a kind under a name. -/
def declares (t : Tree) (kind : Kind) (text : String) : Bool :=
  (t.sites 0 []).any fun statement => statement.kind = .exportStatement &&
    (statement.child? .declaration).any fun declaration => declaration.kind = kind &&
      (declaration.child? .name).any fun name => name.text = text

/-- A declaration that a tree shows is one of a statement in it. -/
theorem exists_of_declares {kind : Kind} {text : String} (h : declares t kind text = true) :
    ∃ statement ∈ t.sites 0 [], ∃ declaration name, Declares statement declaration name ∧
      declaration.kind = kind ∧ name.text = text := by
  simp only [declares, List.any_eq_true, Option.any_eq_true, Bool.and_eq_true,
    decide_eq_true_eq] at h
  obtain ⟨statement, hStatement, hExports, declaration, hHolds, hKind, name, hNamed, hText⟩ := h
  exact ⟨statement, hStatement, declaration, name, ⟨hExports, hHolds, hNamed⟩, hKind, hText⟩

theorem facts_of_declares_generator :
    let t := parse .typescript "export class A \x7b\x7d\nexport function* g() \x7b\x7d"
    ("A" ∈ (facts .typescript t).types ∨ "A" ∈ (facts .typescript t).callables) ∧
      "g" ∈ (facts .typescript t).exports ∧
      "g" ∉ (facts .typescript t).types ∧ "g" ∉ (facts .typescript t).callables := by
  intro t
  obtain ⟨hFault, hClasses, hGenerators, hTypes, hCallables⟩ :
      t.hasFault = false ∧ declares t .classDeclaration "A" = true ∧
        declares t .generatorDeclaration "g" = true ∧
        "g" ∉ (t.places []).filterMap (declaredType? .typescript) ∧
        "g" ∉ (t.places []).filterMap callable? := by
    decide +kernel
  obtain ⟨hParsed, hListing⟩ := facts_of_declares .typescript
  have hFits : Fits .typescript t := hParsed _ hFault
  obtain ⟨_, hClass, _, _, hDeclares, hKind, hText⟩ := exists_of_declares hClasses
  obtain ⟨_, hGenerator, _, _, hDeclares', hKind', hText'⟩ := exists_of_declares hGenerators
  obtain ⟨_, _, _, hListed, _⟩ := hListing hFits hClass hDeclares (by rw [hKind]; decide)
  obtain ⟨_, _, hExported, _⟩ := hListing hFits hGenerator hDeclares' (by rw [hKind']; decide)
  rw [types_eq_filterMap hFits, callables_eq_filterMap hFits] at hListed ⊢
  exact ⟨hText ▸ hListed (by rw [hKind]; decide), hText' ▸ hExported, hTypes, hCallables⟩

end SourceSurvey.Script
