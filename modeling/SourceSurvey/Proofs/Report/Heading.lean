import SourceSurvey.Proofs.Context
import SourceSurvey.Proofs.Text.Line
import SourceSurvey.Proofs.Timestamp
import SourceSurvey.Report.Narrative

/-!
The headings of the reports. A line of the narrative that begins with a number sign is one of them,
unless it begins with a line of a text that the reports take over.
-/

namespace SourceSurvey

open Text (OneLine StartsMarked Opens OpensBelow isLabel)

theorem Timestamp.oneLine_padded (width n : Nat) : OneLine (padded width n) :=
  Text.oneLine_of_isDigit (numeral_padded width n).digit

theorem Timestamp.oneLine_textWith {zone : String} (hZone : OneLine zone) (t : Timestamp) :
    OneLine (t.textWith zone) := by
  have hMark : OneLine "-" ∧ OneLine "T" ∧ OneLine ":" ∧ OneLine "." ∧ OneLine "+" ∧
      OneLine "" := by
    simp [OneLine]
  have hYear : OneLine (yearText t.year) := by
    rw [yearText]
    split
    · exact oneLine_padded _ _
    · split <;> simp [oneLine_padded, hMark]
  have hFraction (nanos : Nat) : OneLine (fractionText nanos) := by
    rw [fractionText]
    repeat' split
    all_goals simp [oneLine_padded, hMark]
  simp [textWith, hYear, hFraction, hMark, oneLine_padded, hZone]

theorem Language.oneLine_name (l : Language) : OneLine l.name := by
  cases l <;> exact Text.oneLine_ofList rfl

theorem Tag.Category.oneLine_name (c : Tag.Category) : OneLine c.name := by
  cases c <;> exact Text.oneLine_ofList rfl

namespace Report

/-- The lines that the reports begin their sections with. -/
def headings : List String :=
  ["# AI Codebase Context", "## Project Statistics", "## Detected Frameworks & Technologies",
    "## Project Structure", "## Key Dependencies", "## Critical Files (High Complexity)",
    "## Technical Stack Summary", "## Critical Components for AI Understanding",
    "### Top Priority Files (High Complexity)", "### API Endpoints Discovered",
    "### Database Models", "### UI Components", "## External Dependencies & Services",
    "## For AI Development Tasks:"]

/-- The heading with the name of the project, as far as the name is on one line. -/
def title (name : String) : String := "# Project Analysis: " ++ Text.firstLine name

/-- If the line is one of the text and begins with a number sign, it is a heading or the title. -/
def Headed (line name text : String) : Prop :=
  line ∈ Path.split '\n' text → StartsMarked line → line ∈ headings ∨ line = title name

variable {records : List Record} {s : Summary} {c : Context} {line name label value text : String}
  {cs : List Char}

/-! ### Texts with no other headings -/

theorem Headed.of_not_opens (h : ¬Opens line text) : Headed line name text :=
  fun hLine hMarked => absurd (Text.opens_of_mem_split hLine hMarked) h

/-- A label keeps the first line of a value from being a heading. The value must not open one
further down. -/
theorem Headed.labelled (hLabel : isLabel cs = true) (hValue : ¬OpensBelow line value) :
    Headed line name (String.ofList cs ++ value) :=
  .of_not_opens (Text.not_opens_label hLabel hValue)

/-- A label by itself is no heading. -/
theorem Headed.fixed (h : isLabel cs = true) : Headed line name (String.ofList cs) :=
  .of_not_opens (Text.not_opens_of_isLabel h)

theorem Headed.empty : Headed line name "" := .of_not_opens Text.not_opens_empty

theorem Headed.heading (h : text ∈ headings) : Headed line name text := by
  have hOneLine : ∀ heading ∈ headings, OneLine heading := by
    simp only [headings, List.forall_mem_cons, List.not_mem_nil, false_implies, implies_true,
      and_true]
    repeat' apply And.intro
    all_goals exact Text.oneLine_ofList rfl
  intro hLine _
  rw [OneLine.split (hOneLine text h), List.mem_singleton] at hLine
  exact .inl (hLine ▸ h)

/-- The name of a project stands in the title, so that only its later lines are open to doubt. -/
theorem Headed.title (hName : ¬OpensBelow line name) :
    Headed line name ("# Project Analysis: " ++ name) := by
  have hLabel : OneLine "# Project Analysis: " := by simp [OneLine]
  intro hLine hMarked
  have hTop := (Text.eq_firstLine_or_opensBelow hLine hMarked).resolve_right
    (hLabel.not_opensBelow_append hName)
  exact .inr (hTop.trans hLabel.firstLine_append)

/-- The lines of several texts are the lines of each. -/
theorem split_ofLines_cons (first : String) (texts : List String) :
    Path.split '\n' (ofLines (first :: texts)) =
      Path.split '\n' first ++ Path.split '\n' (ofLines texts) := by
  have hChars : (ofLines (first :: texts)).toList =
      first.toList ++ '\n' :: (ofLines texts).toList := by
    simp [ofLines, String.join_cons]
  rw [Path.split, hChars, List.splitOn_append_cons_self, List.map_append]
  rfl

/-- Each line of a report is one of a text in it, or the empty line at its end. -/
theorem mem_split_ofLines {texts : List String} : line ∈ Path.split '\n' (ofLines texts) ↔
    (∃ text ∈ texts, line ∈ Path.split '\n' text) ∨ line = "" := by
  induction texts with
  | nil => simp [ofLines, Path.split]
  | cons first texts ih =>
      rw [split_ofLines_cons, List.mem_append, ih, List.exists_mem_cons_iff, or_assoc]

/-- A report is headed if every text in it is. -/
theorem headed_ofLines {texts : List String} (h : ∀ text ∈ texts, Headed line name text) :
    Headed line name (ofLines texts) := by
  intro hLine hMarked
  rcases mem_split_ofLines.1 hLine with ⟨text, hText, hLine⟩ | rfl
  · exact h text hText hLine hMarked
  · cases hMarked

/-! ### The values in the lines -/

theorem not_opensBelow_toString (n : Nat) : ¬OpensBelow line (toString n) :=
  (Text.oneLine_toString n).not_opensBelow

theorem isDigit_or_comma_of_mem_grouped {digits : List Char} (h : ∀ c ∈ digits, c.isDigit = true)
    {c : Char} (hC : c ∈ grouped digits) : c.isDigit = true ∨ c = ',' := by
  induction digits with
  | nil => cases hC
  | cons d rest ih =>
      obtain ⟨hD, hRest⟩ := List.forall_mem_cons.1 h
      rw [grouped] at hC
      split at hC
      · rcases List.mem_cons.1 hC with rfl | hC
        · exact .inl hD
        · rcases List.mem_cons.1 hC with rfl | hC
          · exact .inr rfl
          · exact ih hRest hC
      · rcases List.mem_cons.1 hC with rfl | hC
        · exact .inl hD
        · exact ih hRest hC

/-- A number is written on one line, commas or not. -/
theorem oneLine_withThousands (n : Nat) : OneLine (withThousands n) := by
  intro hBreak
  rw [withThousands, String.toList_ofList] at hBreak
  rcases isDigit_or_comma_of_mem_grouped (fun _ => Text.isDigit_of_mem_decimal) hBreak with
    hDigit | hComma
  · exact absurd hDigit (by decide)
  · exact absurd hComma (by decide)

theorem not_opensBelow_listOr {items : List String}
    (hItems : ∀ item ∈ items, ¬OpensBelow line item) (hFallback : isLabel cs = true) :
    ¬OpensBelow line (listOr items (String.ofList cs)) := by
  rw [listOr]
  split
  · exact Text.not_opensBelow_of_not_opens (Text.not_opens_of_isLabel hFallback)
  · exact Text.not_opensBelow_intercalate hItems

/-- A number with fixed text behind it. -/
theorem not_opensBelow_count (n : Nat) (hLabel : isLabel cs = true) :
    ¬OpensBelow line (toString n ++ String.ofList cs) :=
  Text.not_opensBelow_append (not_opensBelow_toString n) (Text.not_opens_of_isLabel hLabel)

theorem not_opensBelow_languageCount {language : String} (h : ¬OpensBelow line language)
    (count : Nat) : ¬OpensBelow line (languageCount language count) := by
  rw [languageCount, String.append_assoc, String.append_assoc]
  exact Text.not_opensBelow_append h
    (Text.not_opens_label rfl (not_opensBelow_count count rfl))

/-! ### The overview -/

/-- No text that the reports take over from records and summary has a line that opens the given
one. The first line of such a text stands behind a label, apart from that of a framework. -/
structure Plain (line : String) (records : List Record) (s : Summary) : Prop where
  name : ¬OpensBelow line s.name
  languages : ∀ key ∈ s.languages.keys, ¬OpensBelow line key
  frameworks : ∀ name ∈ s.frameworks.keys, ¬Opens line name
  dependencies : ∀ key ∈ s.dependencies.keys, ¬OpensBelow line key
  entryPoints : ∀ path ∈ s.entryPoints, ¬OpensBelow line path
  paths : ∀ r ∈ records, ¬OpensBelow line r.path
  stems : ∀ r ∈ records, ∀ stem, Path.stem? r.path = some stem → ¬OpensBelow line stem
  tags : ∀ r ∈ records, ∀ t ∈ r.tags, ¬OpensBelow line t.value
  types : ∀ r ∈ records, ∀ name ∈ r.types, ¬OpensBelow line name
  callables : ∀ r ∈ records, ∀ name ∈ r.callables, ¬OpensBelow line name

/-- Languages are listed with their counts behind them. -/
theorem not_opensBelow_topLanguages (h : Plain line records s) (limit : Nat) :
    ∀ item ∈ topLanguages s limit, ¬OpensBelow line item := by
  intro item hItem
  obtain ⟨e, hE, rfl⟩ := List.mem_map.1 hItem
  have hEntry := List.mem_mergeSort.1 (List.mem_of_mem_take hE)
  exact not_opensBelow_languageCount (h.languages e.1 (List.mem_map_of_mem hEntry)) e.2

/-- In the lines of a record its path and its tags are behind labels. -/
theorem headed_recordLines {r : Record} (hPath : ¬OpensBelow line r.path)
    (hTags : ∀ t ∈ r.tags, ¬OpensBelow line t.value) :
    ∀ text ∈ recordLines r, Headed line name text := by
  have hHead : Headed line name ("- **" ++ r.path ++ "** (" ++ r.language.name ++ ", " ++
      toString r.lineCount ++ " lines, complexity: " ++ toString r.complexity ++ ")") := by
    simp only [String.append_assoc]
    refine .labelled rfl (Text.not_opensBelow_append hPath (Text.not_opens_label rfl ?_))
    refine Text.not_opensBelow_append (Language.oneLine_name r.language).not_opensBelow
      (Text.not_opens_label rfl ?_)
    refine Text.not_opensBelow_append (not_opensBelow_toString r.lineCount)
      (Text.not_opens_label rfl ?_)
    exact not_opensBelow_count r.complexity rfl
  have hPatterns : Headed line name ("  - Key patterns: " ++
      ", ".intercalate ((r.tags.take 3).map Tag.display)) := by
    refine .labelled rfl (Text.not_opensBelow_intercalate ?_)
    intro item hItem
    obtain ⟨t, hT, rfl⟩ := List.mem_map.1 hItem
    have hValue := hTags t (List.mem_of_mem_take hT)
    rw [Tag.display, String.append_assoc]
    exact Text.not_opensBelow_append (Tag.Category.oneLine_name t.category).not_opensBelow
      (Text.not_opens_label rfl hValue)
  rw [recordLines]
  refine List.forall_mem_cons.2 ⟨hHead, ?_⟩
  split
  · exact fun _ hText => nomatch hText
  · exact List.forall_mem_singleton.2 hPatterns

theorem headed_dependencyLines {keys : List String} (h : ∀ key ∈ keys, ¬OpensBelow line key)
    (count : Nat) : ∀ text ∈ (keys.take count).map ("- " ++ ·), Headed line name text := by
  intro text hText
  obtain ⟨key, hKey, rfl⟩ := List.mem_map.1 hText
  exact .labelled rfl (h key (List.mem_of_mem_take hKey))

/-- An overview has no headings but its own, if this is so of the texts that it takes over. -/
theorem headed_overview (h : Plain line records s) (threshold : Nat) :
    Headed line s.name (overview records s threshold) := by
  have hLanguages := Text.not_opensBelow_intercalate (not_opensBelow_topLanguages h 5)
  have hFrameworks : ¬Opens line (listOr s.frameworks.keys "No specific frameworks detected") := by
    rw [listOr]
    split
    · exact Text.not_opens_of_isLabel rfl
    · exact Text.not_opens_intercalate h.frameworks
  have hDependencies : ∀ text ∈ (if s.dependencies.isEmpty then ["No dependencies file found"]
      else (s.dependencies.keys.take 10).map ("- " ++ ·)), Headed line s.name text := by
    split
    · exact List.forall_mem_singleton.2 (.fixed rfl)
    · exact headed_dependencyLines h.dependencies 10
  have hRecords : ∀ text ∈ ((Record.rankedAbove records threshold).take 10).flatMap recordLines,
      Headed line s.name text := by
    intro text hText
    obtain ⟨r, hR, hText⟩ := List.mem_flatMap.1 hText
    have hRecord := (Record.mem_rankedAbove.1 (List.mem_of_mem_take hR)).1
    exact headed_recordLines (h.paths r hRecord) (h.tags r hRecord) text hText
  apply headed_ofLines
  simp only [overviewLines, List.forall_mem_append, List.forall_mem_cons, List.not_mem_nil,
    false_implies, implies_true, and_true, String.append_assoc]
  refine ⟨⟨⟨?_, hDependencies⟩, .empty, .heading (by simp [headings])⟩, hRecords⟩
  exact ⟨.title h.name, .empty,
    .heading (by simp [headings]), .labelled rfl (not_opensBelow_toString _),
    .labelled rfl (oneLine_withThousands _).not_opensBelow, .labelled rfl hLanguages, .empty,
    .heading (by simp [headings]), .of_not_opens hFrameworks, .empty,
    .heading (by simp [headings]), .labelled rfl (not_opensBelow_listOr h.entryPoints rfl),
    .labelled rfl (not_opensBelow_count _ rfl), .labelled rfl (not_opensBelow_count _ rfl),
    .empty, .heading (by simp [headings])⟩

/-! ### The narrative -/

/-- The same for the texts that the narrative takes over from a context. -/
structure PlainContext (line name : String) (c : Context) : Prop where
  overview : Headed line name c.overview
  languages : ∀ key ∈ c.stack.languages.keys, ¬OpensBelow line key
  frameworks : ∀ name ∈ c.stack.frameworks.keys, ¬OpensBelow line name
  dependencies : ∀ key ∈ c.stack.dependencies.keys, ¬OpensBelow line key
  architecture : ∀ item ∈ c.architecture, ¬OpensBelow line item
  componentNames : ∀ k ∈ c.keyComponents, ¬OpensBelow line k.name
  componentPaths : ∀ k ∈ c.keyComponents, ¬OpensBelow line k.path
  classes : ∀ k ∈ c.keyComponents, ∀ name ∈ k.classes, ¬OpensBelow line name
  functions : ∀ k ∈ c.keyComponents, ∀ name ∈ k.functions, ¬OpensBelow line name
  tags : ∀ t ∈ c.endpoints ++ (c.models ++ c.uiComponents),
    ¬OpensBelow line t.value ∧ ¬OpensBelow line t.sourcePath
  services : ∀ key ∈ c.externalServices, ¬OpensBelow line key
  criticalFiles : ∀ path ∈ c.criticalFiles, ¬OpensBelow line path
  entryPoints : ∀ path ∈ c.entryPoints, ¬OpensBelow line path

/-- In the lines of a component all names are behind labels. -/
theorem headed_componentLines {k : Context.Component} (hName : ¬OpensBelow line k.name)
    (hPath : ¬OpensBelow line k.path) (hClasses : ∀ name ∈ k.classes, ¬OpensBelow line name)
    (hFunctions : ∀ name ∈ k.functions, ¬OpensBelow line name) :
    ∀ text ∈ componentLines k, Headed line name text := by
  have hHead : ¬OpensBelow line (k.name ++ ("** (`" ++ (k.path ++ "`)"))) :=
    Text.not_opensBelow_append hName (Text.not_opens_label rfl
      (Text.not_opensBelow_append hPath (Text.not_opens_of_isLabel rfl)))
  have hType : ¬OpensBelow line (k.language.name ++ (", Complexity: " ++ (toString k.complexity ++
      (", Lines: " ++ toString k.lines)))) := by
    refine Text.not_opensBelow_append (Language.oneLine_name k.language).not_opensBelow
      (Text.not_opens_label rfl ?_)
    exact Text.not_opensBelow_append (not_opensBelow_toString k.complexity)
      (Text.not_opens_label rfl (not_opensBelow_toString k.lines))
  have hFirstFunctions := Text.not_opensBelow_intercalate
    fun name hMem => hFunctions name (List.mem_of_mem_take (i := 5) hMem)
  have hFirstClasses := Text.not_opensBelow_intercalate
    fun name hMem => hClasses name (List.mem_of_mem_take (i := 3) hMem)
  have hClassLines : ∀ text ∈ (if k.classes.isEmpty then []
      else ["- Key classes: " ++ ", ".intercalate (k.classes.take 3)]), Headed line name text := by
    split
    · exact fun _ hText => nomatch hText
    · exact List.forall_mem_singleton.2 (.labelled rfl hFirstClasses)
  simp only [componentLines, List.forall_mem_append, List.forall_mem_cons, List.not_mem_nil,
    false_implies, implies_true, and_true, String.append_assoc]
  exact ⟨⟨⟨.labelled rfl hHead, .labelled rfl hType, .labelled rfl hFirstFunctions⟩, hClassLines⟩,
    .empty⟩

/-- A list of tags begins with its heading, and each tag is behind a mark. -/
theorem headed_tagLines {limit : Nat} {tags : List Context.SourcedTag}
    (hTitle : "### " ++ label ∈ headings)
    (hTags : ∀ t ∈ tags, ¬OpensBelow line t.value ∧ ¬OpensBelow line t.sourcePath) :
    ∀ text ∈ tagLines label limit tags, Headed line name text := by
  rw [tagLines]
  split
  · exact fun _ hText => nomatch hText
  · refine List.forall_mem_append.2 ⟨?_, ?_⟩
    · simp only [List.forall_mem_cons, List.not_mem_nil, false_implies, implies_true, and_true]
      exact ⟨.empty, .heading hTitle⟩
    · intro text hText
      obtain ⟨t, hT, rfl⟩ := List.mem_map.1 hText
      obtain ⟨hValue, hPath⟩ := hTags t (List.mem_of_mem_take hT)
      have hBehind : ¬Opens line ("` (in " ++ (t.sourcePath ++ ")")) :=
        Text.not_opens_label rfl
          (Text.not_opensBelow_append hPath (Text.not_opens_of_isLabel rfl))
      simp only [String.append_assoc]
      exact .labelled rfl (Text.not_opensBelow_append hValue hBehind)

/-- The lines of the first routes are lines of the narrative. -/
theorem mem_split_narrative_of_endpoint {t : Context.SourcedTag} (hT : t ∈ c.endpoints.take 10)
    (hLine : line ∈ Path.split '\n' ("- `" ++ t.value ++ "` (in " ++ t.sourcePath ++ ")")) :
    line ∈ Path.split '\n' (narrative c) := by
  have hTags : "- `" ++ t.value ++ "` (in " ++ t.sourcePath ++ ")" ∈
      tagLines "API Endpoints Discovered" 10 c.endpoints := by
    have hSome : c.endpoints.isEmpty = false := by
      cases hEmpty : c.endpoints with
      | nil => simp [hEmpty] at hT
      | cons _ _ => rfl
    rw [tagLines, hSome]
    exact List.mem_append_right _ (List.mem_map_of_mem hT)
  refine mem_split_ofLines.2 (.inl ⟨_, ?_, hLine⟩)
  simp only [narrativeLines, List.mem_append, hTags, true_or, or_true]

/-- A narrative has no headings but its own, if this is so of the texts that it takes over. -/
theorem headed_narrative (h : PlainContext line name c) : Headed line name (narrative c) := by
  obtain ⟨hEndpoints, hComponents⟩ := List.forall_mem_append.1 h.tags
  obtain ⟨hModels, hUi⟩ := List.forall_mem_append.1 hComponents
  have hLanguages : ¬OpensBelow line (", ".intercalate (c.stack.languages.entries.map
      fun entry => languageCount entry.1 entry.2)) := by
    apply Text.not_opensBelow_intercalate
    intro item hItem
    obtain ⟨e, hE, rfl⟩ := List.mem_map.1 hItem
    exact not_opensBelow_languageCount (h.languages e.1 (List.mem_map_of_mem hE)) e.2
  have hArchitecture : ¬OpensBelow line (listOr c.architecture "none inferred") :=
    not_opensBelow_listOr h.architecture rfl
  have hKey : ∀ text ∈ (c.keyComponents.take 5).flatMap componentLines, Headed line name text := by
    intro text hText
    obtain ⟨k, hK, hText⟩ := List.mem_flatMap.1 hText
    have hMem := List.mem_of_mem_take hK
    exact headed_componentLines (h.componentNames k hMem) (h.componentPaths k hMem)
      (h.classes k hMem) (h.functions k hMem) text hText
  have hServices : ∀ text ∈ (if c.externalServices.isEmpty then []
      else ["", "**Network-facing services**: " ++ ", ".intercalate c.externalServices]),
      Headed line name text := by
    split
    · exact fun _ hText => nomatch hText
    · simp only [List.forall_mem_cons, List.not_mem_nil, false_implies, implies_true, and_true]
      exact ⟨.empty, .labelled rfl (Text.not_opensBelow_intercalate h.services)⟩
  have hCritical : ∀ path ∈ c.criticalFiles.take 5, ¬OpensBelow line path :=
    fun path hMem => h.criticalFiles path (List.mem_of_mem_take hMem)
  have hZone : OneLine "+00:00" := by simp [OneLine]
  have hTime : ¬OpensBelow line (c.timestamp.textWith "+00:00" ++ "*") :=
    Text.not_opensBelow_append (Timestamp.oneLine_textWith hZone c.timestamp).not_opensBelow
      (Text.not_opens_of_isLabel rfl)
  apply headed_ofLines
  simp only [narrativeLines, List.forall_mem_append, List.forall_mem_cons, List.not_mem_nil,
    false_implies, implies_true, and_true, String.append_assoc]
  refine ⟨⟨⟨⟨⟨⟨⟨⟨?stack, hKey⟩, headed_tagLines (by simp [headings]) hEndpoints⟩,
    headed_tagLines (by simp [headings]) hModels⟩, headed_tagLines (by simp [headings]) hUi⟩,
    .empty, .heading (by simp [headings])⟩, headed_dependencyLines h.dependencies 15⟩,
    hServices⟩, ?tasks⟩
  case stack =>
    exact ⟨.heading (by simp [headings]), .empty, h.overview,
      .heading (by simp [headings]), .labelled rfl hLanguages,
      .labelled rfl (not_opensBelow_listOr h.frameworks rfl), .labelled rfl hArchitecture, .empty,
      .heading (by simp [headings]), .empty, .heading (by simp [headings])⟩
  case tasks =>
    exact ⟨.empty, .heading (by simp [headings]),
      .labelled rfl (not_opensBelow_listOr hCritical rfl), .labelled rfl hArchitecture,
      .labelled rfl (not_opensBelow_listOr h.entryPoints rfl), .fixed rfl, .empty, .fixed rfl,
      .labelled rfl hTime, .labelled rfl (Text.oneLine_ofList rfl).not_opensBelow⟩

/-- A context takes its texts from the records and the summary, so it is as plain as they are. -/
theorem plainContext_synthesize (h : Plain line records s) (thresholds : Thresholds)
    (timestamp : Timestamp) :
    PlainContext line s.name (Context.synthesize records s thresholds timestamp) := by
  have hRanked : ∀ {threshold count : Nat} {r : Record},
      r ∈ (Record.rankedAbove records threshold).take count → r ∈ records :=
    fun hR => (Record.mem_rankedAbove.1 (List.mem_of_mem_take hR)).1
  have hTagged : ∀ {category : Tag.Category} {limit : Nat},
      ∀ t ∈ Context.sourcedTags records category limit,
        ¬OpensBelow line t.value ∧ ¬OpensBelow line t.sourcePath := by
    intro category limit t hT
    obtain ⟨r, hR, hTag, hPath, _⟩ :=
      (Context.firstTags_sourcedTags records category limit).sourced t hT
    exact ⟨h.tags r hR ⟨category, t.value⟩ hTag, hPath ▸ h.paths r hR⟩
  have hDependencies : ∀ key ∈ (s.dependencies.take Context.maxDependencies).keys,
      key ∈ s.dependencies.keys := by
    intro key hKey
    obtain ⟨e, hE, rfl⟩ := List.mem_map.1 hKey
    exact List.mem_map_of_mem (List.mem_of_mem_take hE)
  have hHints : ∀ hint ∈ Context.architectureHints, '\n' ∉ hint.2.toList := by decide +kernel
  exact {
    overview := by
      simp only [Context.synthesize]
      exact headed_overview h thresholds.overview
    languages := h.languages
    frameworks := fun name hName => Text.not_opensBelow_of_not_opens (h.frameworks name hName)
    dependencies := fun key hKey => h.dependencies key (hDependencies key hKey)
    architecture := by
      intro item hItem
      obtain ⟨hint, hHint, rfl⟩ := List.mem_map.1 hItem
      exact OneLine.not_opensBelow (hHints hint (List.mem_of_mem_filter hHint))
    componentNames := by
      intro k hK
      obtain ⟨r, hR, rfl⟩ := List.mem_map.1 hK
      have hPath := h.paths r (hRanked hR)
      change ¬OpensBelow line ((Path.stem? r.path).getD r.path)
      cases hStem : Path.stem? r.path with
      | none => exact hPath
      | some stem => exact h.stems r (hRanked hR) stem hStem
    componentPaths := by
      intro k hK
      obtain ⟨r, hR, rfl⟩ := List.mem_map.1 hK
      exact h.paths r (hRanked hR)
    classes := by
      intro k hK name hName
      obtain ⟨r, hR, rfl⟩ := List.mem_map.1 hK
      exact h.types r (hRanked hR) name (List.mem_of_mem_take hName)
    functions := by
      intro k hK name hName
      obtain ⟨r, hR, rfl⟩ := List.mem_map.1 hK
      exact h.callables r (hRanked hR) name (List.mem_of_mem_take hName)
    tags := by
      simp only [List.forall_mem_append]
      exact ⟨hTagged, hTagged, hTagged⟩
    services := fun key hKey => h.dependencies key (List.mem_of_mem_filter hKey)
    criticalFiles := by
      intro path hPath
      obtain ⟨r, hR, rfl⟩ := List.mem_map.1 hPath
      exact h.paths r (hRanked hR)
    entryPoints := h.entryPoints }

end Report

end SourceSurvey
