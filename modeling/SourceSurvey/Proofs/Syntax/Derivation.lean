import SourceSurvey.Proofs.Syntax.Leaf

/-!
Trees that fit a grammar: those that its rules build, whatever its leaves are and in whatever way they
were read. Reading gives no others, so a property of all that is read is shown by induction over what
rules can add to the trees built before in the same node.
-/

namespace SourceSurvey.Syntax

/-- The rules of a grammar, and what its terminals stand for in a tree: a leaf of some kind and text,
or nothing, where a terminal only looks at what is around it. -/
structure Shape (τ ν : Type) where
  rule : ν → Rule τ ν
  solid : τ → Bool
  leaf : τ → Kind → String → Prop

namespace Shape

variable {τ ν σ : Type} {s : Shape τ ν}

/-- A rule can turn the trees built so far, latest first, into these. Where it looks ahead and which
alternative comes first makes no difference. -/
inductive Adds (s : Shape τ ν) : Rule τ ν → List Tree → List Tree → Prop where
  | nothing {terminal : τ} {built : List Tree} (hSolid : s.solid terminal = false) :
      Adds s (.terminal terminal) built built
  | leaf {terminal : τ} {kind : Kind} {gap text : String} {built : List Tree}
      (hSolid : s.solid terminal = true) (hLeaf : s.leaf terminal kind text) :
      Adds s (.terminal terminal) built (.leaf kind none gap text :: built)
  | call {name : ν} {built built' : List Tree} (h : Adds s (s.rule name) built built') :
      Adds s (.call name) built built'
  | sequenceNil {built : List Tree} : Adds s (.sequence []) built built
  | sequenceCons {rule : Rule τ ν} {rules : List (Rule τ ν)} {built built' built'' : List Tree}
      (h : Adds s rule built built') (hRest : Adds s (.sequence rules) built' built'') :
      Adds s (.sequence (rule :: rules)) built built''
  | choice {rule : Rule τ ν} {rules : List (Rule τ ν)} {built built' : List Tree}
      (hRule : rule ∈ rules) (h : Adds s rule built built') : Adds s (.choice rules) built built'
  | manyNil {rule : Rule τ ν} {built : List Tree} : Adds s (.many rule) built built
  | manyCons {rule : Rule τ ν} {built built' built'' : List Tree} (h : Adds s rule built built')
      (hRest : Adds s (.many rule) built' built'') : Adds s (.many rule) built built''
  | without {rule : Rule τ ν} {built : List Tree} : Adds s (.without rule) built built
  | built {kinds : List Kind} {built : List Tree} : Adds s (.built kinds) built built
  | node {kind : Kind} {rule : Rule τ ν} {built inner : List Tree} (h : Adds s rule [] inner) :
      Adds s (.node kind rule) built (.node kind none inner.reverse :: built)
  | within {role : Role} {rule : Rule τ ν} {built inner : List Tree} (h : Adds s rule [] inner) :
      Adds s (.within role rule) built (inner.map (·.withRole role) ++ built)
  | onto {kind : Kind} {role : Option Role} {operands : List Kind} {rule : Rule τ ν} {operand : Tree}
      {before inner : List Tree} (h : Adds s rule [] inner) :
      Adds s (.onto kind role operands rule) (operand :: before)
        (.node kind none ((match role with
          | some role => operand.withRole role
          | none => operand) :: inner.reverse) :: before)

/-- The tree is what the rules derive: one of them first, and another one any number of times. -/
def Derives (s : Shape τ ν) (first rule : Rule τ ν) (t : Tree) : Prop :=
  ∃ built, Adds s (.sequence [first, .many rule]) [] built ∧ t = .node .program none built.reverse

end Shape

namespace Grammar

open Shape (Adds)

variable {τ ν σ : Type} {g : Grammar τ ν σ} {s : Shape τ ν} {good : σ → Prop}

/-- A grammar has the rules of a shape, and at the cursors that can be reached its terminals read what
they stand for there. -/
structure Shaped (g : Grammar τ ν σ) (good : σ → Prop) (s : Shape τ ν) : Prop where
  rule : g.rule = s.rule
  read : ∀ terminal {cursor}, good cursor →
    ReadsLeaf good (s.leaf terminal) (s.solid terminal) (g.read terminal cursor)

/-- A rule has been read, up to a cursor like those before. -/
def Read (good : σ → Prop) (s : Shape τ ν) (rule : Rule τ ν) (p q : Progress σ) : Prop :=
  good q.cursor ∧ Adds s rule p.built q.built

/-- What is read with some fuel is what can be added. -/
structure Reads (g : Grammar τ ν σ) (good : σ → Prop) (s : Shape τ ν) (fuel : Nat) : Prop where
  run : ∀ {rule p q}, good p.cursor → g.run fuel rule p = .fits q → Read good s rule p q
  sequence : ∀ {rules p q}, good p.cursor → g.runSequence fuel rules p = .fits q →
    Read good s (.sequence rules) p q
  choice : ∀ {rules p q}, good p.cursor → g.runChoice fuel rules p = .fits q →
    ∃ rule ∈ rules, Read good s rule p q
  many : ∀ {rule p q}, good p.cursor → g.runMany fuel rule p = .fits q →
    Read good s (.many rule) p q

theorem failsAt_ne_fits {p q : Progress σ} : g.failsAt p ≠ .fits q := nofun

/-- One more step of fuel, for each form of rule. -/
theorem Reads.run_succ (hShaped : g.Shaped good s) {fuel : Nat} (ih : Reads g good s fuel)
    {rule : Rule τ ν} {p q : Progress σ} (hP : good p.cursor)
    (h : g.run (fuel + 1) rule p = .fits q) : Read good s rule p q := by
  cases rule with
  | terminal terminal =>
      rw [Grammar.run] at h
      split at h
      · rename_i hRead
        cases h
        obtain ⟨hAfter, ⟨hSolid, rfl⟩ | ⟨hSolid, kind, gap, text, rfl, hLeaf⟩⟩ :=
          hShaped.read terminal hP hRead
        · exact ⟨hAfter, .nothing hSolid⟩
        · exact ⟨hAfter, .leaf hSolid hLeaf⟩
      · cases failsAt_ne_fits h
  | call name =>
      rw [Grammar.run, hShaped.rule] at h
      exact (ih.run hP h).imp_right .call
  | sequence rules =>
      rw [Grammar.run] at h
      exact ih.sequence hP h
  | choice rules =>
      rw [Grammar.run] at h
      obtain ⟨rule, hRule, hRead⟩ := ih.choice hP h
      exact hRead.imp_right (.choice hRule)
  | many rule =>
      rw [Grammar.run] at h
      exact ih.many hP h
  | without rule =>
      rw [Grammar.run] at h
      split at h
      · cases failsAt_ne_fits h
      · cases h
        exact ⟨hP, .without⟩
  | built kinds =>
      rw [Grammar.run] at h
      split at h
      · split at h
        · cases h
          exact ⟨hP, .built⟩
        · cases failsAt_ne_fits h
      · cases failsAt_ne_fits h
  | node kind rule =>
      rw [Grammar.run] at h
      split at h
      · rename_i hFits
        cases h
        obtain ⟨hAfter, hInner⟩ := ih.run (p := { p with built := [] }) hP hFits
        exact ⟨hAfter, .node hInner⟩
      · cases h
  | within role rule =>
      rw [Grammar.run] at h
      split at h
      · rename_i hFits
        cases h
        obtain ⟨hAfter, hInner⟩ := ih.run (p := { p with built := [] }) hP hFits
        exact ⟨hAfter, .within hInner⟩
      · cases h
  | onto kind role operands rule =>
      rw [Grammar.run] at h
      split at h
      · cases h
      · rename_i operand before hBuilt
        split at h
        · split at h
          · rename_i hFits
            cases h
            obtain ⟨hAfter, hInner⟩ := ih.run (p := { p with built := [] }) hP hFits
            exact ⟨hAfter, hBuilt ▸ .onto hInner⟩
          · cases h
        · cases h

/-- By induction over the fuel: whatever the reader has read has a derivation. -/
theorem reads (hShaped : g.Shaped good s) (fuel : Nat) : Reads g good s fuel := by
  induction fuel with
  | zero =>
      constructor <;> intro _ _ _ _ h <;>
        simp [Grammar.run, runSequence, runChoice, runMany] at h
  | succ fuel ih =>
      refine ⟨ih.run_succ hShaped, ?_, ?_, ?_⟩
      · intro rules p q hP h
        cases rules with
        | nil =>
            cases h
            exact ⟨hP, .sequenceNil⟩
        | cons rule rules =>
            rw [runSequence] at h
            split at h
            · rename_i hFits
              obtain ⟨hBetween, hFirst⟩ := ih.run hP hFits
              exact (ih.sequence hBetween h).imp_right (.sequenceCons hFirst)
            · cases h
      · intro rules p q hP h
        cases rules with
        | nil => cases h
        | cons rule rules =>
            rw [runChoice] at h
            split at h
            · rename_i hFits
              cases h
              exact ⟨rule, List.mem_cons_self, ih.run hP hFits⟩
            · rename_i furthest _
              obtain ⟨later, hLater, hRead⟩ := ih.choice (p := { p with furthest := furthest }) hP h
              exact ⟨later, List.mem_cons_of_mem _ hLater, hRead⟩
      · intro rule p q hP h
        rw [runMany] at h
        split at h
        · rename_i hFits
          obtain ⟨hBetween, hFirst⟩ := ih.run hP hFits
          split at h
          · cases h
            exact ⟨hBetween, .manyCons hFirst .manyNil⟩
          · exact (ih.many hBetween h).imp_right (.manyCons hFirst)
        · cases h
          exact ⟨hP, .manyNil⟩

/-- What is read from a good cursor on is what the rules derive. -/
theorem derives_of_parse {length : Nat} {first rule : Rule τ ν} {cursor : σ} {t : Tree}
    (hShaped : g.Shaped good s) (hCursor : good cursor)
    (h : g.parse length first rule cursor = .ok t) : s.Derives first rule t := by
  obtain ⟨q, hFits, rfl⟩ := exists_fits_of_parse h
  exact ⟨q.built, ((reads hShaped _).run hCursor hFits).2, rfl⟩

end Grammar

end SourceSurvey.Syntax
