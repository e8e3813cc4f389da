import SourceSurvey.Disk.Lookup
import SourceSurvey.Language
import Mathlib.Data.List.Basic

/-!
Names and the paths made of them. Names joined by slashes fall apart into the same names again.
-/

namespace SourceSurvey

namespace PathText

variable (text other : String)

@[simp] theorem ofText_string : (ofText text : String) = text := rfl

@[simp] theorem text?_string : text? text = some text := rfl

@[simp] theorem bind_text?_string (found : Option String) : found.bind text? = found := by
  cases found <;> rfl

@[simp] theorem shown_string : shown text = text := rfl

@[simp] theorem append_string : append text other = text ++ other := rfl

@[simp] theorem startsWith_string : startsWith text other = text.startsWith other := rfl

@[simp] theorem endsWith_string : endsWith text other = text.endsWith other := rfl

@[simp] theorem split_string (separator : Char) : split separator text = Path.split separator text :=
  rfl

@[simp] theorem intercalate_string (texts : List String) :
    intercalate text texts = text.intercalate texts := rfl

end PathText

namespace Path

@[simp] theorem ofNames_string (names : List String) : ofNames names = "/".intercalate names := rfl

/-- The first piece of a text that is split ends at the first separator. -/
theorem split_eq_append {separator : Char} {text : String} (h : separator ∈ text.toList) :
    ∃ before behind, text = before ++ String.singleton separator ++ behind ∧
      separator ∉ before.toList ∧ split separator text = before :: split separator behind := by
  obtain ⟨before, behind, hText, hNot⟩ := List.eq_append_cons_of_mem h
  refine ⟨String.ofList before, String.ofList behind, ?_, by simpa using hNot, ?_⟩
  · rw [← String.toList_inj, hText]
    simp
  · rw [split, split, hText, List.splitOn_append_cons_self, List.splitOn_eq_singleton hNot]
    simp

/-- Where two texts meet, the last piece of the first and the first piece of the second become
one. -/
theorem splitOn_append (separator : Char) (a b : List Char) : ∃ before last first behind,
    a.splitOn separator = before ++ [last] ∧ b.splitOn separator = first :: behind ∧
      (a ++ b).splitOn separator = before ++ (last ++ first) :: behind := by
  induction a with
  | nil =>
      obtain ⟨first, behind, hB⟩ := List.exists_cons_of_ne_nil (List.splitOn_ne_nil separator b)
      exact ⟨[], [], first, behind, List.splitOn_nil separator, hB, hB⟩
  | cons c a ih =>
      obtain ⟨before, last, first, behind, hA, hB, hBoth⟩ := ih
      rw [List.cons_append, List.splitOn_cons_eq_if_modifyHead, List.splitOn_cons_eq_if_modifyHead,
        hA, hBoth]
      split
      · exact ⟨[] :: before, last, first, behind, rfl, hB, rfl⟩
      · cases before with
        | nil => exact ⟨[], c :: last, first, behind, rfl, hB, rfl⟩
        | cons piece before => exact ⟨(c :: piece) :: before, last, first, behind, rfl, hB, rfl⟩

/-- The last piece of one text and the first of the next one grow together. -/
theorem split_append (separator : Char) (a b : String) : ∃ before last first behind,
    split separator a = before ++ [last] ∧ split separator b = first :: behind ∧
      split separator (a ++ b) = before ++ (last ++ first) :: behind := by
  obtain ⟨before, last, first, behind, hA, hB, hBoth⟩ := splitOn_append separator a.toList b.toList
  refine ⟨before.map String.ofList, String.ofList last, String.ofList first,
    behind.map String.ofList, ?_, ?_, ?_⟩
  · rw [split, hA, List.map_append, List.map_singleton]
  · rw [split, hB, List.map_cons]
  · rw [split, String.toList_append, hBoth, List.map_append, List.map_cons, String.ofList_append]

/-- No piece has the separator in it. -/
theorem separator_not_mem_of_mem_split {separator : Char} {text piece : String}
    (h : piece ∈ split separator text) : separator ∉ piece.toList := by
  induction hLength : text.toList.length using Nat.strongRecOn generalizing text with
  | ind length ih =>
      by_cases hMem : separator ∈ text.toList
      · obtain ⟨before, behind, rfl, hNot, hSplit⟩ := split_eq_append hMem
        rw [hSplit] at h
        rcases List.mem_cons.1 h with rfl | h
        · exact hNot
        · refine ih behind.toList.length ?_ h rfl
          rw [← hLength]
          simp
          omega
      · rw [split, List.splitOn_eq_singleton hMem] at h
        simp only [List.map_cons, List.map_nil, List.mem_singleton] at h
        subst h
        simpa using hMem

theorem split_eq_singleton {separator : Char} {text : String} (h : separator ∉ text.toList) :
    split separator text = [text] := by
  rw [split, List.splitOn_eq_singleton h, List.map_singleton, String.ofList_toList]

end Path

namespace Disk

/-- A text is a name if it has no slash and is neither empty nor made of one or two dots. -/
theorem isName_iff {name : String} :
    IsName name ↔ name ≠ "" ∧ name ≠ "." ∧ name ≠ ".." ∧ '/' ∉ name.toList := by
  refine and_congr_right fun _ => and_congr_right fun _ => and_congr_right fun _ => ?_
  constructor
  · intro hSplit
    exact Path.separator_not_mem_of_mem_split (hSplit ▸ List.mem_singleton.2 rfl)
  · exact Path.split_eq_singleton

theorem IsName.slash_not_mem {name : String} (h : IsName name) : '/' ∉ name.toList :=
  (isName_iff.1 h).2.2.2

end Disk

namespace Path

theorem pieces_def (path : String) : pieces path = (split '/' path).filter (· ≠ "") := rfl

/-- The pieces of two paths with a slash between them are those of both. -/
theorem pieces_append (a b : String) : pieces (a ++ "/" ++ b) = pieces a ++ pieces b := by
  have hSlash : (a ++ "/" ++ b).toList = a.toList ++ '/' :: b.toList := by simp
  rw [pieces_def, pieces_def, pieces_def, split, split, split, hSlash, List.splitOn_append_cons_self,
    List.map_append, List.filter_append]

theorem pieces_slash (path : String) : pieces ("/" ++ path) = pieces path := by
  have hPieces := pieces_append "" path
  rwa [String.empty_append] at hPieces

theorem pieces_of_isName {name : String} (h : Disk.IsName name) : pieces name = [name] := by
  have hName : name ≠ "" := h.1
  rw [pieces_def, split_eq_singleton h.slash_not_mem]
  simp [hName]

/-- Names joined by slashes are the pieces of their path, so no two lists of names have one path. -/
theorem pieces_intercalate {names : List String} (h : ∀ name ∈ names, Disk.IsName name) :
    pieces ("/".intercalate names) = names := by
  induction names with
  | nil => rfl
  | cons name names ih =>
      obtain ⟨hName, hNames⟩ := List.forall_mem_cons.1 h
      by_cases hNil : names = []
      · rw [hNil, String.intercalate_singleton, pieces_of_isName hName]
      · rw [String.intercalate_cons_of_ne_nil hNil, pieces_append, pieces_of_isName hName, ih hNames]
        rfl

/-- Different names make different paths. -/
theorem intercalate_injOn {names others : List String} (h : ∀ name ∈ names, Disk.IsName name)
    (hOthers : ∀ name ∈ others, Disk.IsName name)
    (hPaths : "/".intercalate names = "/".intercalate others) : names = others := by
  rw [← pieces_intercalate h, hPaths, pieces_intercalate hOthers]

theorem intercalate_ne_empty {names : List String} (h : ∀ name ∈ names, Disk.IsName name)
    (hNil : names ≠ []) : "/".intercalate names ≠ "" := by
  intro hEmpty
  have hPieces := pieces_intercalate h
  rw [hEmpty] at hPieces
  exact hNil hPieces.symm

theorem startsWith_slash_iff {path : String} :
    path.startsWith "/" ↔ path.toList.head? = some '/' := by
  rw [String.startsWith_string_iff, List.head?_eq_some_iff]
  exact exists_congr fun rest => eq_comm

theorem endsWith_slash_iff {path : String} :
    path.endsWith "/" ↔ path.toList.getLast? = some '/' := by
  rw [String.endsWith_eq_endsWith_toSlice, String.Slice.endsWith_string_iff, String.copy_toSlice,
    List.getLast?_eq_some_iff]
  exact exists_congr fun before => eq_comm

/-- Neither end of a path made of names is a slash. -/
theorem ends_of_intercalate {names : List String} (h : ∀ name ∈ names, Disk.IsName name) :
    ¬("/".intercalate names).startsWith "/" ∧ ¬("/".intercalate names).endsWith "/" := by
  rw [startsWith_slash_iff, endsWith_slash_iff]
  induction names with
  | nil => simp
  | cons name names ih =>
      obtain ⟨hName, hNames⟩ := List.forall_mem_cons.1 h
      have hHead : name.toList.head? ≠ some '/' :=
        fun hHead => hName.slash_not_mem (List.mem_of_head? hHead)
      by_cases hNil : names = []
      · rw [hNil, String.intercalate_singleton]
        exact ⟨hHead, fun hLast => hName.slash_not_mem (List.mem_of_getLast? hLast)⟩
      · obtain ⟨c, chars, hChars⟩ := List.exists_cons_of_ne_nil
          (show name.toList ≠ [] by simpa using hName.1)
        obtain ⟨d, rest, hRest⟩ := List.exists_cons_of_ne_nil
          (show ("/".intercalate names).toList ≠ [] by
            simpa [-String.toList_intercalate] using intercalate_ne_empty hNames hNil)
        have hLast := (ih hNames).2
        rw [hRest] at hLast
        rw [hChars] at hHead
        rw [String.intercalate_cons_of_ne_nil hNil, String.toList_append, String.toList_append, hRest,
          hChars]
        constructor
        · simpa using hHead
        · rwa [List.getLast?_append_cons]

/-- Joining paths as it is for texts: an absolute path replaces the one before it, and a slash is
added where none is. -/
theorem join_def (base path : String) : join base path =
    if path.startsWith "/" then path
    else if base = "" ∨ base.endsWith "/" then base ++ path
    else base ++ "/" ++ path := rfl

/-- A relative path goes on where the base ends, with a slash between them. -/
theorem pieces_join {base path : String} (h : ¬path.startsWith "/") :
    pieces (join base path) = pieces base ++ pieces path := by
  rw [join_def, if_neg h]
  split
  · rename_i hBase
    rcases hBase with rfl | hEnd
    · simp [pieces_def, split]
    · obtain ⟨before, hBefore⟩ := List.getLast?_eq_some_iff.1 (endsWith_slash_iff.1 hEnd)
      have hBase : base = String.ofList before ++ "/" := by
        rw [← String.toList_inj, hBefore]
        simp
      rw [hBase, pieces_append, ← String.append_empty (s := String.ofList before ++ "/"), pieces_append]
      simp [pieces_def, split]
  · exact pieces_append base path

theorem endsWith_join {base path : String} (h : path ≠ "") :
    (join base path).endsWith "/" ↔ path.endsWith "/" := by
  obtain ⟨c, rest, hChars⟩ := List.exists_cons_of_ne_nil
    (show path.toList ≠ [] by simpa using h)
  rw [endsWith_slash_iff, endsWith_slash_iff, join_def]
  split
  · rfl
  · split <;> simp [-List.getLast?_append, hChars, List.getLast?_append_cons]

theorem startsWith_join {base path : String} (h : base.startsWith "/") :
    (join base path).startsWith "/" := by
  rw [startsWith_slash_iff] at h ⊢
  rw [join_def]
  split
  · exact startsWith_slash_iff.1 ‹_›
  · split <;> simp [List.head?_append, h]

/-- Splitting a text loses nothing. -/
theorem intercalate_split (separator : Char) (text : String) :
    (String.singleton separator).intercalate (split separator text) = text := by
  rw [← String.toList_inj, String.toList_intercalate, split, List.map_map]
  simp [Function.comp_def, List.intercalate_splitOn]

theorem intercalate_concat {separator last : String} {pieces : List String} (h : pieces ≠ []) :
    separator.intercalate (pieces ++ [last]) =
      separator.intercalate pieces ++ separator ++ last := by
  induction pieces with
  | nil => exact absurd rfl h
  | cons piece pieces ih =>
      by_cases hNil : pieces = []
      · subst hNil
        rw [List.singleton_append, String.intercalate_cons_of_ne_nil (by simp),
          String.intercalate_singleton, String.intercalate_singleton]
      · rw [List.cons_append, String.intercalate_cons_of_ne_nil (by simp), ih hNil,
          String.intercalate_cons_of_ne_nil hNil]
        simp only [String.append_assoc]

/-- The extension is what follows the last dot. -/
theorem eq_of_splitExtension {fileName stem ext : String}
    (h : splitExtension fileName = (stem, some ext)) :
    fileName = stem ++ "." ++ ext ∧ '.' ∉ ext.toList := by
  simp only [splitExtension, PathText.split_string, PathText.intercalate_string,
    PathText.ofText_string] at h
  split at h
  · rename_i last hLast
    obtain ⟨before, hParts⟩ := List.getLast?_eq_some_iff.1 hLast
    simp only [hParts, List.dropLast_concat] at h
    split at h
    · cases h
    · rename_i hStem
      cases h
      have hBefore : before ≠ [] := by
        intro hNil
        subst hNil
        exact hStem rfl
      have hJoined := intercalate_split '.' fileName
      rw [hParts] at hJoined
      refine ⟨(hJoined.symm.trans (intercalate_concat hBefore)), ?_⟩
      exact separator_not_mem_of_mem_split
        (hParts ▸ List.mem_append_right before (List.mem_singleton.2 rfl))
  · cases h

/-- The components of a path of names are the names themselves. -/
theorem components_intercalate {names : List String} (h : ∀ name ∈ names, Disk.IsName name) :
    components ("/".intercalate names) = names.map .name := by
  have hPieces := pieces_intercalate h
  have hHead : (split '/' ("/".intercalate names)).head? ≠ some "." := by
    intro hHead
    have hMem : "." ∈ pieces ("/".intercalate names) :=
      List.mem_filter.2 ⟨List.mem_of_head? hHead, by simp⟩
    rw [hPieces] at hMem
    exact (h "." hMem).2.1 rfl
  have hPlain : ∀ name ∈ names, name ≠ "." := fun name hMem => (h name hMem).2.1
  have hNames : (names.filter (· ≠ ".")).map (fun p => if p = ".." then .parent else .name p) =
      names.map Component.name := by
    rw [List.filter_eq_self.2 (by simpa using hPlain)]
    apply List.map_congr_left
    intro name hMem
    exact if_neg (h name hMem).2.2.1
  simp only [components, PathText.startsWith_string, PathText.split_string,
    PathText.ofText_string, hPieces, hNames, if_neg (ends_of_intercalate h).1, if_neg hHead]

/-- The last of some names is the name of the file. -/
theorem fileName?_intercalate {names : List String} (h : ∀ name ∈ names, Disk.IsName name) :
    fileName? ("/".intercalate names) = names.getLast? := by
  rw [fileName?, components_intercalate h, List.getLast?_map]
  cases names.getLast? <;> rfl

end Path

namespace Language

theorem ofPath_def (path : String) :
    ofPath path = ((Path.extension? path).map ofExtension).getD text := by
  rw [ofPath, PathText.bind_text?_string]

theorem extensionOf_def (path : String) :
    extensionOf path = ((Path.extension? path).map lowered).getD "" := by
  rw [extensionOf, PathText.bind_text?_string]

end Language

end SourceSurvey
