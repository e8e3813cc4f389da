import SourceSurvey.Proofs.Syntax.Children
import SourceSurvey.Proofs.Syntax.Name
import SourceSurvey.Script.Parse
import Mathlib.Data.List.TakeWhile

/-!
The leaves of scripts. None is empty, names are on one line each, and strings stand between quotation
marks.
-/

namespace SourceSurvey.Script

open Syntax
open Text (OneLine)

/-! ### Words -/

theorem no_break_of_isHex {cs : List Char} (h : ∀ c ∈ cs, isHex c = true) : '\n' ∉ cs :=
  fun hBreak => absurd (h '\n' hBreak) (by decide)

theorem no_break_codePoint {cs : List Char} {n : Nat} (h : codePointLength? cs = some n) :
    '\n' ∉ cs.take n := by
  rw [codePointLength?.eq_def] at h
  split at h
  · rename_i cs
    simp only at h
    split at h
    · cases h
    · split at h
      · rename_i rest hRest
        cases h
        have hDigits : '\n' ∉ cs.takeWhile isHex :=
          no_break_of_isHex fun c => List.mem_takeWhile_imp
        have hParts : cs.takeWhile isHex ++ '\x7d' :: rest = cs :=
          hRest ▸ List.prefix_iff_eq_append.1 (List.takeWhile_prefix isHex)
        generalize cs.takeWhile isHex = digits at hDigits hParts ⊢
        subst hParts
        simp [List.take_length_add_append, hDigits]
      · cases h
  · rename_i cs _
    rw [Option.ite_none_right_eq_some] at h
    obtain ⟨hFour, hLength⟩ := h
    cases hLength
    have hShort := List.length_take_le 4 cs
    have hFilter := List.length_filter_le isHex (cs.take 4)
    have hHex := List.length_filter_eq_length_iff.1
      (show ((cs.take 4).filter isHex).length = (cs.take 4).length by omega)
    have hNone := no_break_of_isHex hHex
    rw [List.take_succ_cons, List.mem_cons, not_or]
    exact ⟨by decide, hNone⟩
  · cases h

/-- A word has no line break, if the escape that it begins in has none. -/
theorem no_break_word {first : Bool} {pending : Nat} {cs : List Char}
    (hPending : '\n' ∉ cs.take pending) : '\n' ∉ cs.take (wordLength first pending cs) := by
  induction cs generalizing first pending with
  | nil => simp
  | cons c cs ih =>
      cases pending with
      | succ n =>
          rw [List.take_succ_cons, List.mem_cons, not_or] at hPending
          rw [wordLength, List.take_succ_cons, List.mem_cons, not_or]
          exact ⟨hPending.1, ih hPending.2⟩
      | zero =>
          rw [wordLength]
          split
          · rename_i hBackslash
            split
            · rename_i n hEscape
              rw [List.take_succ_cons, List.mem_cons, not_or]
              exact ⟨by rw [hBackslash]; decide, ih (no_break_codePoint hEscape)⟩
            · simp
          · have hBreak : isNameStart '\n' = false ∧ isNameChar '\n' = false := by decide
            by_cases hName : (if first then isNameStart c else isNameChar c) = true
            · rw [if_pos hName, List.take_succ_cons, List.mem_cons, not_or]
              refine ⟨?_, ih (by simp)⟩
              rintro rfl
              simp [hBreak] at hName
            · rw [if_neg hName]
              simp

/-! ### Strings -/

/-- The text is some content between two quotation marks of one sort. -/
def Quoted (text : String) (content : List Char) : Prop :=
  ∃ quote, (quote = '"' ∨ quote = '\'') ∧ text.toList = quote :: content ++ [quote]

theorem Quoted.ne_empty {text : String} {content : List Char} (h : Quoted text content) :
    text ≠ "" := by
  obtain ⟨quote, _, hText⟩ := h
  rintro rfl
  cases hText

/-- A string ends with its closing quotation mark. -/
theorem exists_of_stringLength? {quote : Char} {pending length : Nat} {cs : List Char}
    (h : stringLength? quote pending cs = some length) :
    ∃ content, cs.take length = content ++ [quote] := by
  induction cs generalizing pending length with
  | nil => cases pending <;> cases h
  | cons c cs ih =>
      have hGoOn : ∀ {pending}, (stringLength? quote pending cs).map (· + 1) = some length →
          ∃ content, (c :: cs).take length = content ++ [quote] := by
        intro pending hLength
        obtain ⟨n, hRest, rfl⟩ := Option.map_eq_some_iff.1 hLength
        obtain ⟨content, hContent⟩ := ih hRest
        exact ⟨c :: content, by rw [List.take_succ_cons, hContent, List.cons_append]⟩
      cases pending with
      | succ n =>
          rw [stringLength?] at h
          exact hGoOn h
      | zero =>
          rw [stringLength?] at h
          split at h
          · rename_i hQuote
            cases h
            exact ⟨[], by simp [hQuote]⟩
          · split at h
            · split at h
              · exact hGoOn h
              · cases h
            · split at h
              · cases h
              · exact hGoOn h

/-! ### Reading -/

namespace Terminal

/-- The kind of the names that a terminal reads, if it is one for names. -/
def nameKind? : Terminal → Option Kind
  | name kind _ => some kind
  | _ => none

/-- The terminal reads a leaf, and does not look around only. -/
def solid : Terminal → Bool
  | sameLine | statementEnd _ => false
  | _ => true

/-- What a leaf is that a terminal stands for. -/
structure Leaf (terminal : Terminal) (kind : Kind) (text : String) : Prop where
  named : ∀ {named}, terminal.nameKind? = some named → kind = named
  quoted : terminal.nameKind? = none → kind = .string → ∃ content, Quoted text content
  nonempty : text ≠ ""
  oneLine : kind ∈ nameKinds → OneLine text

/-- What is no name and no string has only to have a text. -/
theorem Leaf.other {terminal : Terminal} {kind : Kind} {text : String}
    (hName : terminal.nameKind? = none) (hKind : kind ∉ .string :: nameKinds) (hText : text ≠ "") :
    terminal.Leaf kind text where
  named := fun hNamed => by cases hName.symm.trans hNamed
  quoted := fun _ hString => absurd (hString ▸ List.mem_cons_self) hKind
  nonempty := hText
  oneLine := fun hMem => absurd (List.mem_cons_of_mem _ hMem) hKind

end Terminal

namespace Cursor

/-- The word and the operator at the cursor are what the text behind it begins with. -/
structure Exact (c : Cursor) : Prop where
  word : c.word = String.ofList (c.rest.take (wordLength true 0 c.rest))
  operator : c.operator = String.ofList (operatorAt c.rest)

theorem exact_ofChars (markup : Bool) (offset : Nat) (cs : List Char) :
    (ofChars markup offset cs).Exact := ⟨rfl, rfl⟩

/-- A terminal reads one leaf at most, and that is what it stands for. -/
abbrev ReadsFitting (terminal : Terminal) (result : Option (List Tree × Cursor)) : Prop :=
  ReadsLeaf Exact terminal.Leaf terminal.solid result

variable {terminal : Terminal} {c : Cursor}

/-- A solid terminal may read on if what it reads is a leaf for it. -/
theorem readsFitting_advance {kind : Kind} {length : Nat} {markup : Bool}
    (hSolid : terminal.solid = true)
    (hLeaf : length ≠ 0 → terminal.Leaf kind (String.ofList (c.rest.take length))) :
    ReadsFitting terminal (c.advance kind length markup) := by
  rw [advance]
  split
  · exact readsLeaf_none
  · rename_i hLength
    exact readsLeaf_leaf hSolid (exact_ofChars _ _ _) (hLeaf hLength)

theorem readsFitting_token {length : Nat} {markup : Bool} (hSolid : terminal.solid = true)
    (hName : terminal.nameKind? = none)
    (hEmpty : c.rest = [] → length = 0) :
    ReadsFitting terminal (c.advance .token length markup) :=
  readsFitting_advance hSolid fun hLength =>
    .other hName (by decide) (ofList_take_ne_empty hLength hEmpty)

theorem readsFitting_raw {length : Nat} (hSolid : terminal.solid = true)
    (hName : terminal.nameKind? = none)
    (hEmpty : c.gap.text ++ c.rest = [] → length = 0) :
    ReadsFitting terminal (c.advanceRaw length) := by
  rw [advanceRaw]
  split
  · exact readsLeaf_none
  · rename_i hLength
    exact readsLeaf_leaf hSolid (exact_ofChars _ _ _)
      (.other hName (by decide) (ofList_take_ne_empty hLength hEmpty))

theorem Exact.word_eq_empty (h : c.Exact) (hRest : c.rest = []) : c.word = "" := by
  rw [h.word, hRest]
  rfl

theorem Exact.operator_eq_empty (h : c.Exact) (hRest : c.rest = []) : c.operator = "" := by
  rw [h.operator, hRest]
  rfl

/-- A word is on one line: escapes in it are made of digits. -/
theorem Exact.oneLine_take_word (h : c.Exact) :
    OneLine (String.ofList (c.rest.take c.word.length)) := by
  have hWord : '\n' ∉ c.rest.take (wordLength true 0 c.rest) := no_break_word (by simp)
  rw [OneLine, String.toList_ofList, h.word, String.length_ofList, List.length_take]
  exact fun hBreak => hWord ((List.take_prefix_take_left (Nat.min_le_left _ _)).subset hBreak)

/-- Each terminal reads as it should in each dialect, at any exact place. -/
theorem readsFitting_read (dialect : Dialect) (terminal : Terminal) (hC : c.Exact) :
    ReadsFitting terminal (c.read dialect terminal) := by
  cases terminal with
  | word text =>
      refine ReadsLeaf.ite fun hWord => readsFitting_token rfl rfl fun hRest => ?_
      rw [← hWord, hC.word_eq_empty hRest]
      rfl
  | name kind except =>
      simp only [read]
      split
      · exact readsLeaf_none
      · refine readsFitting_advance rfl fun hLength => ⟨?_, nofun, ?_, fun _ => ?_⟩
        · exact fun hNamed => Option.some.inj hNamed
        · refine ofList_take_ne_empty hLength fun hRest => ?_
          rw [hC.word_eq_empty hRest]
          rfl
        · exact hC.oneLine_take_word
  | privateName =>
      simp only [read]
      split
      · rename_i cs hRest
        split
        · exact readsLeaf_none
        · refine readsFitting_advance rfl fun hLength => .other rfl (by decide) ?_
          exact ofList_take_ne_empty hLength fun hNil => by cases hRest.symm.trans hNil
      · exact readsLeaf_none
  | operator text =>
      refine ReadsLeaf.ite fun hOperator => readsFitting_token rfl rfl fun hRest => ?_
      rw [← hOperator, hC.operator_eq_empty hRest]
      rfl
  | anyOperator texts =>
      refine ReadsLeaf.ite fun _ => readsFitting_token rfl rfl fun hRest => ?_
      rw [hC.operator_eq_empty hRest]
      rfl
  | angle =>
      refine ReadsLeaf.ite fun hAngle => readsFitting_token rfl rfl fun hRest => ?_
      rw [hRest] at hAngle
      cases hAngle
  | string =>
      simp only [read]
      split
      · rename_i quote cs hRest
        refine ReadsLeaf.ite fun hQuote => readsLeaf_bind fun length hLength => ?_
        obtain ⟨content, hContent⟩ := exists_of_stringLength? hLength
        have hText : c.rest.take (length + 1) = quote :: content ++ [quote] := by
          rw [hRest, List.take_succ_cons, hContent, List.cons_append]
        have hMarks : quote = '"' ∨ quote = '\'' := by simpa using hQuote
        refine readsFitting_advance rfl fun _ => ⟨nofun, fun _ _ => ?_, ?_, fun hName => ?_⟩
        · exact ⟨content, quote, hMarks, by rw [String.toList_ofList, hText]⟩
        · simp [hText]
        · exact absurd hName (by decide)
      · exact readsLeaf_none
  | number =>
      refine readsFitting_token rfl rfl fun hRest => ?_
      rw [hRest]
      rfl
  | regex =>
      simp only [read]
      split
      · rename_i cs hRest
        split
        · exact readsFitting_token rfl rfl fun hNil => by cases hRest.symm.trans hNil
        · exact readsLeaf_none
      · exact readsLeaf_none
  | templateText =>
      refine readsLeaf_bind fun length hLength => readsFitting_raw rfl rfl fun hNil => ?_
      rw [hNil] at hLength
      cases hLength
  | tagName =>
      refine readsFitting_token rfl rfl fun hRest => ?_
      rw [hRest]
      rfl
  | tagString =>
      simp only [read]
      split
      · rename_i quote cs hRest
        refine ReadsLeaf.ite fun _ => readsLeaf_bind fun length _ => readsFitting_token rfl rfl ?_
        exact fun hNil => by cases hRest.symm.trans hNil
      · exact readsLeaf_none
  | tagText =>
      refine readsFitting_raw rfl rfl fun hNil => ?_
      rw [hNil]
      rfl
  | reference =>
      refine readsLeaf_bind fun length hLength => readsFitting_token rfl rfl fun hRest => ?_
      rw [hRest] at hLength
      cases hLength
  | sameLine => exact ReadsLeaf.ite fun _ => readsLeaf_nothing hC
  | statementEnd afterExpression => exact ReadsLeaf.ite fun _ => readsLeaf_nothing hC
  | interpreter =>
      simp only [read]
      split
      · rename_i cs hRest
        refine ReadsLeaf.ite fun _ => readsFitting_token rfl rfl ?_
        exact fun hNil => by cases hRest.symm.trans hNil
      · exact readsLeaf_none
  | markupComment =>
      refine ReadsLeaf.ite fun _ => readsFitting_token rfl rfl fun hRest => ?_
      rw [hRest]
      rfl

end Cursor

end SourceSurvey.Script
