import SourceSurvey.Proofs.Regex.Group
import SourceSurvey.Proofs.Text.Letter

/-!
The characters that an expression may read, and those that its groups may capture.
-/

namespace SourceSurvey

namespace Regex

/-- A character that the expression may read. -/
def mayRead : Regex → Char → Bool
  | empty, _ | anchor _, _ => false
  | set s, c | span s _, c => s.contains c
  | seq r s, c | alt r s, c => r.mayRead c || s.mayRead c
  | «repeat» r _, c | group _ r, c => r.mayRead c

/-- A character that may be in the text of a group. -/
def mayCapture : Regex → Char → Bool
  | empty, _ | anchor _, _ | set _, _ | span _ _, _ => false
  | seq r s, c | alt r s, c => r.mayCapture c || s.mayCapture c
  | «repeat» r _, c => r.mayCapture c
  | group _ r, c => r.mayRead c

/-- What may be captured may be read. -/
theorem mayRead_of_mayCapture {r : Regex} {c : Char} (h : r.mayCapture c = true) :
    r.mayRead c = true := by
  induction r with
  | empty | anchor _ | set _ | span _ _ => cases h
  | seq r s ihr ihs | alt r s ihr ihs =>
      simp only [mayCapture, mayRead, Bool.or_eq_true] at h ⊢
      exact h.imp ihr ihs
  | «repeat» r _ ih => exact ih h
  | group _ r _ => exact h

theorem mayRead_ignoringCase {r : Regex} {c : Char} (h : Text.caseVariants c = [c]) :
    r.ignoringCase.mayRead c = r.mayRead c := by
  induction r with
  | empty | anchor _ => rfl
  | set _ | span _ _ => simp [ignoringCase, mayRead, CharSet.contains, h]
  | seq _ _ ihr ihs | alt _ _ ihr ihs => simp only [ignoringCase, mayRead, ihr, ihs]
  | «repeat» _ _ ih | group _ _ ih => exact ih

/-- To ignore case makes no difference to a character that has none. -/
theorem mayCapture_ignoringCase {r : Regex} {c : Char} (h : Text.caseVariants c = [c]) :
    r.ignoringCase.mayCapture c = r.mayCapture c := by
  induction r with
  | empty | anchor _ | set _ | span _ _ => rfl
  | seq _ _ ihr ihs | alt _ _ ihr ihs => simp only [ignoringCase, mayCapture, ihr, ihs]
  | «repeat» _ _ ih => exact ih
  | group _ _ _ => exact mayRead_ignoringCase h

/-- A text that the expression describes is made of characters that it may read. -/
theorem mayRead_of_mem_language {r : Regex} {read : List Char} (h : read ∈ r.language) {c : Char}
    (hC : c ∈ read) : r.mayRead c = true := by
  induction r generalizing read with
  | empty | anchor _ =>
      rw [(Language.mem_one _).1 h] at hC
      cases hC
  | set s =>
      obtain ⟨d, hD, rfl⟩ := h
      rwa [List.mem_singleton.1 hC]
  | span s _ => exact h.2 c hC
  | seq r s ihr ihs =>
      obtain ⟨first, hFirst, second, hSecond, rfl⟩ := Language.mem_mul.1 h
      rw [mayRead, Bool.or_eq_true]
      exact (List.mem_append.1 hC).imp (ihr hFirst) (ihs hSecond)
  | alt r s ihr ihs =>
      rw [mayRead, Bool.or_eq_true]
      exact h.imp (ihr · hC) (ihs · hC)
  | «repeat» r _ ih =>
      obtain ⟨pieces, _, hPieces, rfl⟩ := h
      obtain ⟨piece, hPiece, hIn⟩ := List.mem_flatten.1 hC
      exact ih (hPieces piece hPiece) hIn
  | group _ r ih => exact ih h hC

/-- What a group may read may be captured. -/
theorem mayCapture_of_mem_groups {r inner : Regex} {number : Nat} (h : (number, inner) ∈ r.groups)
    {c : Char} (hC : inner.mayRead c = true) : r.mayCapture c = true := by
  induction r with
  | empty | anchor _ | set _ | span _ _ => cases h
  | seq r s ihr ihs | alt r s ihr ihs =>
      rw [mayCapture, Bool.or_eq_true]
      exact (List.mem_append.1 h).imp ihr ihs
  | «repeat» r _ ih => exact ih h
  | group _ r ih =>
      rcases List.mem_cons.1 h with hSame | hInside
      · cases hSame
        exact hC
      · exact mayRead_of_mayCapture (ih hInside)

/-- What the first group captures is made of characters that a group may capture. -/
theorem mayCapture_of_mem_firstGroups {r : Regex} {text value : List Char}
    (h : value ∈ r.firstGroups text) {c : Char} (hC : c ∈ value) : r.mayCapture c = true := by
  obtain ⟨_, inner, hGroup, hValue⟩ := exists_of_mem_firstGroups h
  exact mayCapture_of_mem_groups hGroup (mayRead_of_mem_language hValue hC)

end Regex

end SourceSurvey
