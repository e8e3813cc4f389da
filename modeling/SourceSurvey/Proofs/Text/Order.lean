import SourceSurvey.Glob.Match
import Mathlib.Data.List.Lex
import Mathlib.Tactic.SplitIfs

/-!
The order of texts is that of their bytes: of two characters the smaller has the smaller UTF-8
form, and neither form is a beginning of the other.
-/

namespace SourceSurvey.Glob

private theorem div_4096 (n : Nat) : n / 4096 = n / 64 / 64 := by omega

private theorem div_262144 (n : Nat) : n / 262144 = n / 64 / 64 / 64 := by omega

/-- The forms differ at a byte that both have, whatever follows them. -/
theorem utf8EncodeChar_append_lt {a b : Char} (h : a < b) (x y : List UInt8) :
    String.utf8EncodeChar a ++ x < String.utf8EncodeChar b ++ y := by
  have hVal : a.val.toNat < b.val.toNat := h
  have hBound : b.val.toNat < 1114112 := by
    have hValid := b.valid
    simp only [UInt32.isValidChar, Nat.isValidChar] at hValid
    omega
  simp only [String.utf8EncodeChar]
  generalize a.val.toNat = m at hVal ⊢
  generalize b.val.toNat = n at hVal hBound ⊢
  -- one case for each pair of lengths; within a length the digits to base 64 decide
  split_ifs <;>
    simp only [List.cons_append, List.nil_append, List.cons_lt_cons_iff, UInt8.lt_iff_toNat_lt,
      ← UInt8.toNat_inj, UInt8.toNat_ofNat', div_4096, div_262144] <;>
    omega

/-- By induction over the characters: the first that differs decides, in its first byte that
does. -/
theorem flatMap_utf8EncodeChar_lt {s t : List Char} (h : s < t) :
    s.flatMap String.utf8EncodeChar < t.flatMap String.utf8EncodeChar := by
  induction h with
  | @nil c t =>
      rw [List.flatMap_nil, List.flatMap_cons]
      obtain ⟨b, rest, hForm⟩ := List.exists_cons_of_ne_nil (String.utf8EncodeChar_ne_nil (c := c))
      rw [hForm]
      exact List.nil_lt_cons b _
  | @rel a s b t hLt =>
      rw [List.flatMap_cons, List.flatMap_cons]
      exact utf8EncodeChar_append_lt hLt _ _
  | @cons a s t _ ih =>
      rw [List.flatMap_cons, List.flatMap_cons]
      exact List.append_left_lt ih

/-- Texts in order have their bytes in order, which is what names are compared by. -/
theorem bytes_lt_bytes {s t : String} (h : s < t) : bytes s < bytes t :=
  flatMap_utf8EncodeChar_lt h

/-- Names are compared component by component, and each component by its bytes. -/
theorem map_bytes_lt_map_bytes {names others : List String} (h : names < others) :
    names.map bytes < others.map bytes := by
  induction h with
  | nil => exact List.nil_lt_cons _ _
  | rel hLt => exact List.cons_lt_cons_iff.2 (Or.inl (bytes_lt_bytes hLt))
  | cons _ ih => exact List.cons_lt_cons_iff.2 (Or.inr ⟨rfl, ih⟩)

end SourceSurvey.Glob
