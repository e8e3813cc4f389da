import SourceSurvey.Proofs.Syntax.Children
import SourceSurvey.Proofs.Syntax.Name
import SourceSurvey.Python.Parse
import Mathlib.Data.List.TakeWhile

/-!
The leaves of Python files. None is empty, and names are on one line each.
-/

namespace SourceSurvey.Python

open Syntax
open Text (OneLine)

theorem no_break_word (cs : List Char) : '\n' ∉ cs.take (wordLength cs) := by
  cases cs with
  | nil => simp
  | cons c cs =>
      have hBreak : isNameStart '\n' = false ∧ isNameChar '\n' = false := by decide
      rw [wordLength]
      split
      · rename_i hStart
        rw [List.take_succ_cons, List.mem_cons, not_or,
          ← List.prefix_iff_eq_take.1 (List.takeWhile_prefix isNameChar)]
        constructor
        · rintro rfl
          exact absurd hStart (by simp [hBreak])
        · intro hMem
          exact absurd (List.mem_takeWhile_imp hMem) (by simp [hBreak])
      · simp

/-- The kinds of leaves. -/
def leafKinds : List Kind := [.token, .identifier, .string]

namespace Terminal

/-- The kind of the names that a terminal reads, if it is one for names. -/
def nameKind? : Terminal → Option Kind
  | name _ => some .identifier
  | _ => none

/-- The terminal reads a leaf, and does not look around only. -/
def solid : Terminal → Bool
  | sameLine | newline | indent | dedent => false
  | _ => true

/-- What a leaf is that a terminal stands for. -/
structure Leaf (terminal : Terminal) (kind : Kind) (text : String) : Prop where
  kind_mem : kind ∈ leafKinds
  named : ∀ {named}, terminal.nameKind? = some named → kind = named
  nonempty : text ≠ ""
  oneLine : kind ∈ nameKinds → OneLine text

/-- What is no name has only to have a text. -/
theorem Leaf.other {terminal : Terminal} {kind : Kind} {text : String}
    (hName : terminal.nameKind? = none) (hKind : kind ∈ leafKinds) (hOther : kind ∉ nameKinds)
    (hText : text ≠ "") : terminal.Leaf kind text where
  kind_mem := hKind
  named := fun hNamed => by cases hName.symm.trans hNamed
  nonempty := hText
  oneLine := fun hMem => absurd hMem hOther

end Terminal

namespace Cursor

/-- The word and the operator at the cursor are what the text behind it begins with. -/
structure Exact (c : Cursor) : Prop where
  word : c.word = String.ofList (c.rest.take (wordLength c.rest))
  operator : c.operator = String.ofList (operatorAt c.rest)

theorem exact_moved (c : Cursor) (offset : Nat) (cs : List Char) : (c.moved offset cs).Exact :=
  ⟨rfl, rfl⟩

theorem exact_ofChars (cs : List Char) : (ofChars cs).Exact := ⟨rfl, rfl⟩

/-- A terminal reads one leaf at most, and that is what it stands for. -/
abbrev ReadsFitting (terminal : Terminal) (result : Option (List Tree × Cursor)) : Prop :=
  ReadsLeaf Exact terminal.Leaf terminal.solid result

variable {terminal : Terminal} {c : Cursor}

/-- A solid terminal may read on if what it reads is a leaf for it. -/
theorem readsFitting_advance {kind : Kind} {length : Nat} (hSolid : terminal.solid = true)
    (hLeaf : length ≠ 0 → terminal.Leaf kind (String.ofList (c.rest.take length))) :
    ReadsFitting terminal (c.advance kind length) := by
  rw [advance]
  split
  · exact readsLeaf_none
  · rename_i hLength
    rw [Bool.or_eq_true, decide_eq_true_eq, not_or] at hLength
    exact readsLeaf_leaf hSolid (exact_moved _ _ _) (hLeaf hLength.1)

theorem readsFitting_token {length : Nat} (hSolid : terminal.solid = true)
    (hName : terminal.nameKind? = none)
    (hEmpty : c.rest = [] → length = 0) : ReadsFitting terminal (c.advance .token length) :=
  readsFitting_advance hSolid fun hLength =>
    .other hName (by decide) (by decide) (ofList_take_ne_empty hLength hEmpty)

theorem readsFitting_raw {length : Nat} (hSolid : terminal.solid = true)
    (hName : terminal.nameKind? = none)
    (hEmpty : c.gap.text ++ c.rest = [] → length = 0) :
    ReadsFitting terminal (c.advanceRaw length) := by
  rw [advanceRaw]
  split
  · exact readsLeaf_none
  · rename_i hLength
    exact readsLeaf_leaf hSolid (exact_moved _ _ _)
      (.other hName (by decide) (by decide) (ofList_take_ne_empty hLength hEmpty))

theorem Exact.word_eq_empty (h : c.Exact) (hRest : c.rest = []) : c.word = "" := by
  rw [h.word, hRest]
  rfl

theorem Exact.operator_eq_empty (h : c.Exact) (hRest : c.rest = []) : c.operator = "" := by
  rw [h.operator, hRest]
  rfl

/-- A word is on one line. -/
theorem Exact.oneLine_take_word (h : c.Exact) :
    OneLine (String.ofList (c.rest.take c.word.length)) := by
  have hWord := no_break_word c.rest
  rw [OneLine, String.toList_ofList, h.word, String.length_ofList, List.length_take]
  exact fun hBreak => hWord ((List.take_prefix_take_left (Nat.min_le_left _ _)).subset hBreak)

theorem readsFitting_operator (hSolid : terminal.solid = true)
    (hName : terminal.nameKind? = none) (hC : c.Exact) :
    ReadsFitting terminal c.advanceOperator := by
  refine ReadsLeaf.map (readsFitting_token hSolid hName fun hRest => ?_) (fun _ => rfl) ?_
  · rw [hC.operator_eq_empty hRest]
    rfl
  · exact fun _ hAfter => ⟨hAfter.word, hAfter.operator⟩

/-- Each terminal reads as it should, at any exact place. -/
theorem readsFitting_read (terminal : Terminal) (hC : c.Exact) :
    ReadsFitting terminal (c.read terminal) := by
  cases terminal with
  | word text =>
      refine ReadsLeaf.ite fun hWord => readsFitting_token rfl rfl fun hRest => ?_
      rw [← hWord, hC.word_eq_empty hRest]
      rfl
  | name except =>
      simp only [read]
      split
      · exact readsLeaf_none
      · refine readsFitting_advance rfl fun hLength => ⟨by decide, ?_, ?_, fun _ => ?_⟩
        · exact fun hNamed => Option.some.inj hNamed
        · refine ofList_take_ne_empty hLength fun hRest => ?_
          rw [hC.word_eq_empty hRest]
          rfl
        · exact hC.oneLine_take_word
  | operator text => exact ReadsLeaf.ite fun _ => readsFitting_operator rfl rfl hC
  | anyOperator texts => exact ReadsLeaf.ite fun _ => readsFitting_operator rfl rfl hC
  | dot =>
      refine ReadsLeaf.ite fun hDot => readsFitting_token rfl rfl fun hRest => ?_
      rw [hRest] at hDot
      cases hDot
  | number =>
      refine readsFitting_token rfl rfl fun hRest => ?_
      rw [hRest]
      rfl
  | string =>
      simp only [read]
      split
      · rename_i quote start hOpening
        split
        · exact readsLeaf_none
        · refine readsLeaf_bind fun length _ => readsFitting_advance rfl fun hLength => ?_
          refine .other rfl (by decide) (by decide) (ofList_take_ne_empty hLength ?_)
          intro hRest
          rw [hRest] at hOpening
          cases hOpening
      · exact readsLeaf_none
  | formatStart =>
      simp only [read]
      split
      · rename_i quote start hOpening
        refine ReadsLeaf.ite fun _ => ReadsLeaf.map (readsFitting_token rfl rfl ?_) (fun _ => rfl) ?_
        · intro hRest
          rw [hRest] at hOpening
          cases hOpening
        · exact fun _ hAfter => ⟨hAfter.word, hAfter.operator⟩
      · exact readsLeaf_none
  | formatText =>
      simp only [read]
      split
      · refine readsLeaf_bind fun length hLength => readsFitting_raw rfl rfl fun hNil => ?_
        rw [hNil] at hLength
        cases hLength
      · exact readsLeaf_none
  | formatEnd =>
      simp only [read]
      split
      · refine ReadsLeaf.ite fun hClosing =>
          ReadsLeaf.map (readsFitting_raw rfl rfl ?_) (fun _ => rfl) ?_
        · intro hNil
          rw [hNil, List.isPrefixOf_iff_prefix, List.prefix_nil] at hClosing
          rw [hClosing]
          rfl
        · exact fun _ hAfter => ⟨hAfter.word, hAfter.operator⟩
      · exact readsLeaf_none
  | formatSpec =>
      refine readsFitting_raw rfl rfl fun hNil => ?_
      rw [hNil]
      rfl
  | sameLine =>
      simp only [read]
      split
      · exact readsLeaf_none
      · exact readsLeaf_nothing hC
  | newline | indent | dedent =>
      exact ReadsLeaf.ite fun _ => readsLeaf_nothing ⟨hC.word, hC.operator⟩

end Cursor

end SourceSurvey.Python
