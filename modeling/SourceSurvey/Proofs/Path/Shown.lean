import SourceSurvey.Proofs.Path
import SourceSurvey.Proofs.Text.Utf8
import Mathlib.Data.List.TakeWhile

/-!
Names of any bytes, and how they are shown. A slash or a dot in what is shown of a name or path is
one of its bytes, so the names and the extension of a path are shown as those of the path that is
shown. A name that is a text is shown as it is; any other one is shown with a replacement.
-/

namespace SourceSurvey

open PathText (ofText text? shown)

namespace RawText

variable {name other : RawText} {text : String}

instance : Std.Irrefl (α := RawText) (· < ·) := ⟨fun a => List.lt_irrefl a.bytes⟩

instance : Std.Asymm (α := RawText) (· < ·) := ⟨fun _ _ h => List.lt_asymm h⟩

/-! ### Texts -/

/-- A text is shown as it is. -/
theorem shown_ofText (text : String) : shown (ofText text : RawText) = text :=
  Text.ofBytes_toBytes text

/-- A name that is a text is the form of that text. -/
theorem text?_eq_some_iff : text? name = some text ↔ name = ofText text := by
  refine Text.ofBytes?_eq_some_iff.trans ⟨fun h => ?_, fun h => ?_⟩
  · change name = ⟨Text.toBytes text⟩
    rw [h]
  · rw [h]
    rfl

theorem shown_eq_of_text? (h : text? name = some text) : shown name = text := by
  rw [text?_eq_some_iff.1 h, shown_ofText]

/-- What is shown without a replacement is the name itself. -/
theorem shown_eq_iff (h : Text.replacement ∉ text.toList) :
    shown name = text ↔ name = ofText text := by
  constructor
  · intro hShown
    cases hText : text? name with
    | some found =>
        rw [← hShown, shown_eq_of_text? hText]
        exact text?_eq_some_iff.1 hText
    | none => exact absurd (hShown ▸ Text.replacement_mem_of_ofBytes? hText) h
  · rintro rfl
    exact shown_ofText text

/-- Of names that are texts the bytes are those of what is shown. -/
theorem bytes_shown (h : (text? name).isSome) : Text.toBytes (shown name) = name.bytes := by
  obtain ⟨text, hText⟩ := Option.isSome_iff_exists.1 h
  rw [shown_eq_of_text? hText, text?_eq_some_iff.1 hText]
  rfl

/-! ### Separators -/

variable {c : Char}

theorem toBytes_separator (hc : Text.IsSeparator c) :
    Text.toBytes (String.singleton c) = [Text.byteOf c] := by
  have hSmall : c.val.toNat ≤ 127 := Nat.le_of_lt_succ hc.2
  rw [Text.toBytes_eq, String.toList_singleton, List.flatMap_singleton, String.utf8EncodeChar]
  exact if_pos hSmall

/-- What stands between separators is shown as what stands between those that are shown. -/
theorem split_shown (hc : Text.IsSeparator c) (path : RawText) :
    Path.split c (shown path) = (PathText.split c path).map shown := by
  have hPieces := Text.splitOn_separator_ofBytes hc path.bytes
  change ((Text.ofBytes path.bytes).toList.splitOn c).map String.ofList =
    ((path.bytes.splitOn (Text.byteOf c)).map mk).map shown
  rw [hPieces, List.map_map, List.map_map]
  exact List.map_congr_left fun piece _ => String.ofList_toList

/-- Joined names are shown as the joined texts: the separator keeps their bytes apart. -/
theorem shown_intercalate (hc : Text.IsSeparator c) (names : List RawText) :
    shown (PathText.intercalate (String.singleton c) names) =
      (String.singleton c).intercalate (names.map shown) := by
  change Text.ofBytes ((Text.toBytes (String.singleton c)).intercalate (names.map bytes)) = _
  rw [toBytes_separator hc]
  induction names with
  | nil => rfl
  | cons name names ih =>
      by_cases hNil : names = []
      · subst hNil
        rw [List.map_singleton, List.map_singleton, List.intercalate_singleton,
          String.intercalate_singleton]
        rfl
      · rw [List.map_cons, List.map_cons, List.intercalate_cons_of_ne_nil (by simpa using hNil),
          String.intercalate_cons_of_ne_nil (by simpa using hNil), ← ih, ← String.toList_inj,
          List.append_assoc, List.singleton_append, Text.toList_ofBytes_append_separator hc]
        simp only [String.toList_append, String.toList_singleton, List.append_assoc,
          List.singleton_append]
        rfl

end RawText

namespace Path

open RawText (split_shown shown_intercalate shown_eq_iff)

variable {names : List RawText}

theorem shown_ofNames (names : List RawText) :
    shown (ofNames names) = "/".intercalate (names.map shown) :=
  shown_intercalate (c := '/') (by decide) names

/-- The stem and the extension are shown as those of the name that is shown. -/
theorem splitExtension_shown (name : RawText) : splitExtension (shown name) =
    (shown (splitExtension name).1, (splitExtension name).2.map shown) := by
  have hParts : PathText.split '.' (shown name) = (PathText.split '.' name).map shown :=
    split_shown (by decide) name
  rw [splitExtension, splitExtension, hParts]
  simp only [List.getLast?_map]
  cases (PathText.split '.' name).getLast? with
  | none => rfl
  | some ext =>
      have hStem : PathText.intercalate "." ((PathText.split '.' name).map shown).dropLast =
          shown (PathText.intercalate "." (PathText.split '.' name).dropLast) := by
        rw [← List.map_dropLast]
        exact (shown_intercalate (c := '.') (by decide) _).symm
      simp only [Option.map_some, hStem, PathText.ofText_string]
      by_cases hEmpty : PathText.intercalate "." (PathText.split '.' name).dropLast = ofText ""
      · rw [if_pos ((shown_eq_iff (by decide)).2 hEmpty), if_pos hEmpty]
        rfl
      · rw [if_neg (mt (shown_eq_iff (by decide)).1 hEmpty), if_neg hEmpty]
        rfl

end Path

/-- A name is shown as a name. -/
theorem Disk.IsName.shown {name : RawText} (h : IsName name) : IsName (shown name) := by
  obtain ⟨hEmpty, hCurrent, hParent, hSplit⟩ := h
  refine ⟨?_, ?_, ?_, ?_⟩
  · exact mt (RawText.shown_eq_iff (by decide)).1 hEmpty
  · exact mt (RawText.shown_eq_iff (by decide)).1 hCurrent
  · exact mt (RawText.shown_eq_iff (by decide)).1 hParent
  · exact (RawText.split_shown (by decide) name).trans (by rw [hSplit, List.map_singleton])

namespace Path

variable {names : List RawText}

theorem isName_of_mem_shown (h : ∀ name ∈ names, Disk.IsName name) :
    ∀ name ∈ names.map shown, Disk.IsName name := by
  intro name hMem
  obtain ⟨raw, hRaw, rfl⟩ := List.mem_map.1 hMem
  exact (h raw hRaw).shown

/-! ### Names joined by slashes -/

theorem slash_not_mem_bytes {name : RawText} (h : Disk.IsName name) : 0x2F ∉ name.bytes := by
  intro hMem
  obtain ⟨before, behind, hBytes⟩ := List.append_of_mem hMem
  have hSplit : (name.bytes.splitOn 0x2F).map RawText.mk = [name] := h.2.2.2
  rw [hBytes, List.splitOn_append_cons_self] at hSplit
  have hLength := congrArg List.length hSplit
  have hBefore := List.length_pos_iff.2 (List.splitOn_ne_nil 0x2F before)
  have hBehind := List.length_pos_iff.2 (List.splitOn_ne_nil 0x2F behind)
  simp only [List.length_map, List.length_append, List.length_singleton] at hLength
  omega

/-- Joined names can be taken apart, also where they are no texts. -/
theorem split_ofNames (h : ∀ name ∈ names, Disk.IsName name) (hNil : names ≠ []) :
    PathText.split '/' (ofNames names) = names := by
  have hSlash : Text.toBytes "/" = [0x2F] := RawText.toBytes_separator (c := '/') (by decide)
  change (((Text.toBytes "/").intercalate (names.map RawText.bytes)).splitOn 0x2F).map
    RawText.mk = names
  rw [hSlash, List.splitOn_intercalate 0x2F _ (by simpa using hNil), List.map_map]
  · exact List.map_id _
  · intro bytes hMem
    obtain ⟨name, hName, rfl⟩ := List.mem_map.1 hMem
    exact slash_not_mem_bytes (h name hName)

/-- So the pieces of their path are the names. -/
theorem pieces_ofNames (h : ∀ name ∈ names, Disk.IsName name) : pieces (ofNames names) = names := by
  by_cases hNil : names = []
  · subst hNil
    decide +kernel
  · rw [pieces, split_ofNames h hNil, List.filter_eq_self]
    exact fun name hMem => by simpa using (h name hMem).1

theorem not_startsWith_ofNames (h : ∀ name ∈ names, Disk.IsName name) :
    ¬PathText.startsWith (ofNames names) "/" := by
  cases names with
  | nil => decide +kernel
  | cons name names =>
      intro hStarts
      have hSlash : Text.toBytes "/" = [0x2F] := RawText.toBytes_separator (c := '/') (by decide)
      have hSplit := split_ofNames h (List.cons_ne_nil name names)
      change (Text.toBytes "/").isPrefixOf (ofNames (name :: names)).bytes = true at hStarts
      change ((ofNames (name :: names)).bytes.splitOn 0x2F).map RawText.mk = name :: names at hSplit
      obtain ⟨rest, hRest⟩ := List.isPrefixOf_iff_prefix.1 hStarts
      have hFirst := List.splitOn_append_cons_self (a := (0x2F : UInt8)) [] rest
      rw [List.nil_append, List.splitOn_nil, List.singleton_append] at hFirst
      rw [← hRest, hSlash, List.singleton_append, hFirst, List.map_cons] at hSplit
      -- the first piece would be empty
      have hEmpty : (ofText "" : RawText) = ⟨[]⟩ := by decide +kernel
      exact (h name List.mem_cons_self).1 ((List.cons.inj hSplit).1.symm.trans hEmpty.symm)

theorem components_ofNames (h : ∀ name ∈ names, Disk.IsName name) :
    components (ofNames names) = names.map .name := by
  have hHead : (PathText.split '/' (ofNames names)).head? ≠ some (ofText ".") := by
    intro hHead
    have hMem : ofText "." ∈ pieces (ofNames names) :=
      List.mem_filter.2 ⟨List.mem_of_head? hHead, by decide +kernel⟩
    rw [pieces_ofNames h] at hMem
    exact (h _ hMem).2.1 rfl
  have hPlain : names.filter (· ≠ ofText ".") = names := by
    rw [List.filter_eq_self]
    exact fun name hMem => by simpa using (h name hMem).2.1
  rw [components, pieces_ofNames h, if_neg (not_startsWith_ofNames h), if_neg hHead, hPlain]
  exact List.map_congr_left fun name hMem => if_neg (h name hMem).2.2.1

/-- The last of the names is the name of the file. -/
theorem fileName?_ofNames (h : ∀ name ∈ names, Disk.IsName name) :
    fileName? (ofNames names) = names.getLast? := by
  rw [fileName?, components_ofNames h, List.getLast?_map]
  cases names.getLast? <;> rfl

/-- The extension is shown as that of the path that is shown. -/
theorem extension?_shown (h : ∀ name ∈ names, Disk.IsName name) :
    extension? ("/".intercalate (names.map shown)) = (extension? (ofNames names)).map shown := by
  rw [extension?, extension?, fileName?_ofNames h, fileName?_intercalate (isName_of_mem_shown h),
    List.getLast?_map]
  cases names.getLast? with
  | none => rfl
  | some name => exact congrArg Prod.snd (splitExtension_shown name)

end Path

namespace Language

/-- An extension with a replacement character is that of no language. -/
theorem lookup_eq_none {entries : List (String × Language)} {ext : String}
    (hPlain : ∀ entry ∈ entries, Text.replacement ∉ entry.1.toList)
    (h : Text.replacement ∈ ext.toList) : entries.lookup ext = none := by
  rw [List.lookup_eq_none_iff]
  intro entry hEntry
  rw [bne_iff_ne]
  rintro rfl
  exact hPlain entry hEntry h

/-- No language has an extension with a replacement. -/
theorem ofExtension_of_replacement_mem {ext : String} (h : Text.replacement ∈ ext.toList) :
    ofExtension ext = text := by
  have hDots : Text.replacement ∈ ext.toList.dropWhile (· = '.') := by
    rw [← List.takeWhile_append_dropWhile (p := (· = '.')) (l := ext.toList)] at h
    refine (List.mem_append.1 h).resolve_left fun hDot => ?_
    exact absurd (List.mem_takeWhile_imp hDot) (by decide)
  have hLowered : Text.replacement ∈
      (lowered (String.ofList (ext.toList.dropWhile (· = '.')))).toList := by
    rw [lowered, String.toList_ofList, String.toList_ofList]
    exact List.mem_map.2 ⟨Text.replacement, hDots, by decide⟩
  have hPlain : ∀ entry ∈ extensions, Text.replacement ∉ entry.1.toList := by decide
  rw [ofExtension, lookup_eq_none hPlain hLowered, Option.getD_none]

/-- A file has the language of the path that is shown. -/
theorem ofPath_shown {names : List RawText} (h : ∀ name ∈ names, Disk.IsName name) :
    ofPath ("/".intercalate (names.map shown)) = ofPath (Path.ofNames names) := by
  rw [ofPath_def, ofPath, Path.extension?_shown h]
  cases Path.extension? (Path.ofNames names) with
  | none => rfl
  | some ext =>
      cases hText : text? ext with
      | some found => simp [hText, RawText.shown_eq_of_text? hText]
      | none =>
          have hUnknown : ofExtension (shown ext) = text :=
            ofExtension_of_replacement_mem (Text.replacement_mem_of_ofBytes? hText)
          simp [hText, hUnknown]

end Language

end SourceSurvey
