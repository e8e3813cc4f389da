import SourceSurvey.Extraction
import SourceSurvey.Proofs.Regex.Capture
import SourceSurvey.Proofs.Tag
import SourceSurvey.Proofs.Text.Blank

/-!
What the built-in rules and the idioms capture is a piece of the text, made of the characters that
values of its kind are made of: quoted texts have no quotes in them, names are words.
-/

namespace SourceSurvey

open Text

/-- A piece of the content that is not empty. -/
def IsPiece (content value : String) : Prop := value ≠ "" ∧ value.toList <:+: content.toList

/-- There are no quotes in the value. -/
def Unquoted (value : String) : Prop := '"' ∉ value.toList ∧ '\'' ∉ value.toList

/-- All characters are those of words. -/
def IsOneWord (value : String) : Prop := ∀ c ∈ value.toList, isWord c = true

/-- A capital letter of ASCII, and at least one more character of a word. -/
def IsCapitalised (value : String) : Prop :=
  ∃ c rest, value.toList = c :: rest ∧ 'A' ≤ c ∧ c ≤ 'Z' ∧ rest ≠ [] ∧ ∀ d ∈ rest, isWord d = true

/-- A name as it stands in a list within braces, without blanks around it. -/
def IsListed (value : String) : Prop :=
  trim value = value ∧ ',' ∉ value.toList ∧ '\x7d' ∉ value.toList

/-- The values that tags of a category may have. -/
def Tag.Category.Allows : Category → String → Prop
  | .endpoint => Unquoted
  | .persistenceModel => IsOneWord
  | .uiComponent => IsCapitalised

namespace Regex

/-- The characters of words stay the same when letter case is ignored. -/
theorem isWord_of_contains_ignoringCase {c : Char}
    (h : (CharSet.ignoringCase word).contains c = true) : Text.isWord c = true := by
  obtain ⟨v, hV, hWord⟩ := List.any_eq_true.1 h
  exact isWord_of_mem_caseVariants hV hWord

end Regex

section

variable {content : String} {value : List Char}

/-- What an expression captures stands in the content. -/
theorem isPiece_ofList (hSome : value ≠ []) (hInfix : value <:+: content.toList) :
    IsPiece content (String.ofList value) := by
  refine ⟨fun hEmpty => hSome ?_, ?_⟩
  · simpa using congrArg String.toList hEmpty
  · rwa [String.toList_ofList]

theorem unquoted_ofList (h : ∀ c ∈ value, (Regex.noneOf "\"'").contains c = true) :
    Unquoted (String.ofList value) := by
  rw [Unquoted, String.toList_ofList]
  constructor
  all_goals
    intro hQuote
    exact absurd (h _ hQuote) (by decide)

theorem isOneWord_ofList (h : ∀ c ∈ value, Regex.word.contains c = true) :
    IsOneWord (String.ofList value) := by
  rwa [IsOneWord, String.toList_ofList]

theorem isCapitalised_ofList
    (h : value ∈ (Regex.sequence [.set (.range 'A' 'Z'), .many Regex.word]).language) :
    IsCapitalised (String.ofList value) := by
  obtain ⟨first, ⟨c, hC, rfl⟩, others, hOthers, rfl⟩ := Language.mem_mul.1 h
  obtain ⟨rest, hRest, last, hLast, rfl⟩ := Language.mem_mul.1 hOthers
  obtain ⟨hSome, hWord⟩ := Regex.mem_language_many hRest
  obtain ⟨hLeast, hMost⟩ := Bool.and_eq_true_iff.1 hC
  refine ⟨c, rest, ?_, of_decide_eq_true hLeast, of_decide_eq_true hMost, hSome, hWord⟩
  rw [String.toList_ofList, (Language.mem_one _).1 hLast, List.append_nil]
  rfl

theorem isListed_of_isOneWord {value : String} (h : IsOneWord value) : IsListed value := by
  have hBlank : ∀ c ∈ value.toList, isBlank c = false := by
    intro c hC
    by_contra hBlank
    rw [Bool.not_eq_false] at hBlank
    exact absurd (h c hC) (by simp [isWord_eq_false_of_isBlank hBlank])
  refine ⟨?_, fun hC => absurd (h _ hC) (by decide), fun hC => absurd (h _ hC) (by decide)⟩
  rw [trim, trimBoth_eq_self (fun c hC => hBlank c (List.mem_of_mem_head? hC))
    (fun c hC => hBlank c (List.mem_of_mem_getLast? hC)), String.ofList_toList]

end

/-! ### Tags -/

namespace Tag

/-- Rules for endpoints capture a text without quotes. -/
theorem groups_endpointRules {rule : Regex} (h : rule ∈ endpointRules) :
    rule.groups = [(1, .many (Regex.noneOf "\"'"))] := by
  obtain ⟨call, _, rfl⟩ := List.mem_map.1 h
  simp [Regex.quotedText, Regex.quote, Regex.groups]

/-- Rules for models capture a word. -/
theorem groups_persistenceModelRules {rule : Regex} (h : rule ∈ persistenceModelRules) :
    rule.groups = [(1, (Regex.many Regex.word).ignoringCase)] := by
  obtain ⟨cased, hCased, rfl⟩ := List.mem_map.1 h
  have hGroups : cased.groups = [(1, Regex.many Regex.word)] := by
    clear h
    revert cased
    simp [Regex.blanks, Regex.gap, Regex.name, optionalArguments]
  rw [Regex.groups_ignoringCase, hGroups]
  rfl

/-- Rules for components capture a word with a capital letter. -/
theorem groups_uiComponentRules {rule : Regex} (h : rule ∈ uiComponentRules) :
    rule.groups = [(1, Regex.sequence [.set (.range 'A' 'Z'), .many Regex.word])] := by
  revert rule
  simp [uiComponentRules, Regex.blanks, Regex.gap, capitalised, Regex.groups]

/-- What a built-in rule captures is a piece of the content, as values of its category are. -/
theorem isPiece_of_builtinRules {category : Category} {rule : Regex}
    (hRule : rule ∈ builtinRules category) {content : String} {value : List Char}
    (hValue : value ∈ rule.firstGroups content.toList) :
    IsPiece content (String.ofList value) ∧ category.Allows (String.ofList value) := by
  cases category with
  | endpoint =>
      obtain ⟨hSome, hInfix, hChars⟩ := Regex.captured_many (groups_endpointRules hRule) hValue
      exact ⟨isPiece_ofList hSome hInfix, unquoted_ofList hChars⟩
  | persistenceModel =>
      obtain ⟨hSome, hInfix, hChars⟩ :=
        Regex.captured_many (groups_persistenceModelRules hRule) hValue
      refine ⟨isPiece_ofList hSome hInfix, isOneWord_ofList fun c hC => ?_⟩
      exact Regex.isWord_of_contains_ignoringCase (hChars c hC)
  | uiComponent =>
      obtain ⟨hInfix, hName⟩ :=
        Regex.mem_language_of_mem_firstGroups (groups_uiComponentRules hRule) hValue
      have hCapitalised := isCapitalised_ofList hName
      refine ⟨isPiece_ofList ?_ hInfix, hCapitalised⟩
      rintro rfl
      obtain ⟨_, _, hCons, _⟩ := hCapitalised
      cases hCons

/-- The built-in rules can be registered, and whatever they tag is well formed. -/
theorem exists_registryWith_default : ∃ registry, registryWith {} = .ok registry ∧
    ∀ content language, ∀ t ∈ registry.tag content language,
      IsPiece content t.value ∧ t.category.Allows t.value := by
  obtain ⟨registry, hRegistry⟩ : ∃ registry, registryWith {} = .ok registry := ⟨_, rfl⟩
  refine ⟨registry, hRegistry, fun content language t hTag => ?_⟩
  rw [Registry.tag_eq] at hTag
  obtain ⟨set, hSet, _, hSame, rule, hRule, hValue⟩ :=
    Registry.exists_rule_of_mem_allTags (List.mem_of_mem_take hTag)
  have hBuiltin : rule ∈ builtinRules set.category := by
    rcases madeOf_of_registryWith hRegistry set hSet rule hRule with hBuiltin | ⟨_, hExtra, _⟩
    · exact hBuiltin
    · have hNone : ∀ category, ExtraRules.ofCategory {} category = [] := by
        rintro (_ | _ | _) <;> rfl
      rw [hNone] at hExtra
      cases hExtra
  have hFormed := isPiece_of_builtinRules hBuiltin hValue
  rwa [String.ofList_toList, hSame] at hFormed

end Tag

/-! ### Facts -/

namespace Idiom

theorem groups_imports {idiom : Regex} (h : idiom ∈ imports) :
    idiom.groups = [(1, .many (Regex.noneOf "\"'"))] := by
  revert idiom
  simp [imports, Regex.blanks, Regex.quotedText, Regex.quote, Regex.groups]

/-- The idioms that capture names. -/
def names : List Regex := exportedDeclaration :: moduleExports :: types :: callables

theorem groups_names {idiom : Regex} (h : idiom ∈ names) :
    idiom.groups = [(1, .many Regex.word)] := by
  revert idiom
  simp [names, exportedDeclaration, moduleExports, types, callables, optionalAsync, Regex.blanks,
    Regex.gap, Regex.name]

theorem groups_exportedList : exportedList.groups = [(1, .many (Regex.noneOf "\x7d"))] := by
  simp [exportedList, Regex.gap]

theorem isOneWord_of_names {idiom : Regex} (hIdiom : idiom ∈ names) {content : String}
    {value : List Char} (hValue : value ∈ idiom.firstGroups content.toList) :
    IsPiece content (String.ofList value) ∧ IsOneWord (String.ofList value) := by
  obtain ⟨hSome, hInfix, hChars⟩ := Regex.captured_many (groups_names hIdiom) hValue
  exact ⟨isPiece_ofList hSome hInfix, isOneWord_ofList hChars⟩

/-- A name in an exported list is a piece of it without commas or brackets. -/
theorem isListed_of_localNames {content : String} {list name : List Char}
    (hList : list ∈ exportedList.firstGroups content.toList) (hName : name ∈ localNames list) :
    IsPiece content (String.ofList name) ∧ IsListed (String.ofList name) := by
  obtain ⟨_, hInfix, hChars⟩ := Regex.captured_many groups_exportedList hList
  obtain ⟨hItems, hSome⟩ := List.mem_filter.1 hName
  obtain ⟨item, hItem, rfl⟩ := List.mem_map.1 hItems
  have hInItem : trimBoth isBlank (beforeInfix " as ".toList item) <:+: item :=
    (trimBoth_isInfix _ _).trans (prefix_beforeInfix _ item).isInfix
  have hInList := infix_of_mem_splitBy hItem
  have hComma : ',' ∉ item := by
    rw [splitBy_eq_splitOn] at hItem
    exact not_mem_of_mem_splitOn hItem
  refine ⟨isPiece_ofList (by simpa using hSome) (hInItem.trans (hInList.trans hInfix)), ?_⟩
  rw [IsListed, trim, String.toList_ofList, trimBoth_trimBoth]
  refine ⟨rfl, fun hC => hComma (hInItem.subset hC), fun hC => ?_⟩
  exact absurd (hChars _ (hInList.subset (hInItem.subset hC))) (by decide)

end Idiom

/-- Every value that a built-in rule or an idiom captures is a piece of the content and is made as
values of its kind are, whatever the content. -/
theorem captured_values_wellFormed :
    (∃ registry, Tag.registryWith {} = .ok registry ∧
      ∀ content language, ∀ t ∈ registry.tag content language,
        IsPiece content t.value ∧ t.category.Allows t.value) ∧
    ∀ content,
      (∀ v ∈ (Idiom.facts content).imports, IsPiece content v ∧ Unquoted v) ∧
      (∀ v ∈ (Idiom.facts content).types, IsPiece content v ∧ IsOneWord v) ∧
      (∀ v ∈ (Idiom.facts content).callables, IsPiece content v ∧ IsOneWord v) ∧
      ∀ v ∈ (Idiom.facts content).exports, IsPiece content v ∧ IsListed v := by
  refine ⟨Tag.exists_registryWith_default, fun content => ?_⟩
  simp only [Idiom.facts, List.map_append, List.forall_mem_append, List.forall_mem_map,
    List.forall_mem_flatMap]
  have hNamed : ∀ idiom ∈ Idiom.names, ∀ value ∈ idiom.firstGroups content.toList,
      IsPiece content (String.ofList value) ∧ IsOneWord (String.ofList value) :=
    fun _ hIdiom _ hValue => Idiom.isOneWord_of_names hIdiom hValue
  simp only [Idiom.names, List.forall_mem_cons] at hNamed
  obtain ⟨hDeclared, hModule, hTypes, hCallables⟩ := hNamed
  refine ⟨fun idiom hIdiom value hValue => ?_, hTypes, hCallables, ⟨?_, ?_⟩, ?_⟩
  · obtain ⟨hSome, hInfix, hChars⟩ := Regex.captured_many (Idiom.groups_imports hIdiom) hValue
    exact ⟨isPiece_ofList hSome hInfix, unquoted_ofList hChars⟩
  · exact fun value hValue => (hDeclared value hValue).imp id isListed_of_isOneWord
  · exact fun list hList name hName => Idiom.isListed_of_localNames hList hName
  · exact fun value hValue => (hModule value hValue).imp id isListed_of_isOneWord

/-- A quote of the other kind ends a quoted text, and a name ends where its characters end. -/
theorem captured_values_wellFormed_quote :
    let content := "import x from \"a b'; class Ab_1-c"
    "a b" ∈ (Idiom.facts content).imports ∧ "Ab_1" ∈ (Idiom.facts content).types ∧
      (IsPiece content "a b" ∧ Unquoted "a b") ∧ IsPiece content "Ab_1" ∧ IsOneWord "Ab_1" := by
  intro content
  have hImport : "a b" ∈ (Idiom.facts content).imports := by decide +kernel
  have hType : "Ab_1" ∈ (Idiom.facts content).types := by decide +kernel
  obtain ⟨hImports, hTypes, _, _⟩ := captured_values_wellFormed.2 content
  exact ⟨hImport, hType, hImports _ hImport, hTypes _ hType⟩

end SourceSurvey
