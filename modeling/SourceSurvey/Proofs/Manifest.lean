import SourceSurvey.Proofs.Disk.Write
import SourceSurvey.Proofs.Manifest.Section

/-!
The dependencies of all manifests. Each ecosystem has keys of its own, whatever its packages are
called, so that a manifest decides about its own entries and about nothing else.
-/

namespace SourceSurvey

namespace Disk.Entry

def bytes? : Entry → Option (List UInt8)
  | .file bytes _ => some bytes
  | _ => none

end Disk.Entry

namespace Ecosystem

theorem name_injective : Function.Injective name := by
  intro e e' hName
  cases e <;> cases e' <;> first | rfl | exact absurd hName (by decide)

theorem colon_notMem_name (e : Ecosystem) : ':' ∉ e.name.toList := by
  cases e <;> decide

/-- The first colon of a key ends the name of the ecosystem. -/
theorem takeWhile_key (e : Ecosystem) (package : String) :
    (e.key package).toList.takeWhile (· ≠ ':') = e.name.toList := by
  have hName : ∀ c ∈ e.name.toList, decide (c ≠ ':') = true := by
    intro c hC
    exact decide_eq_true fun hColon => e.colon_notMem_name (hColon ▸ hC)
  rw [key, String.append_assoc, String.toList_append, List.takeWhile_append_of_pos hName,
    String.toList_append]
  simp

/-- Keys tell both the ecosystem and the package. -/
theorem key_inj {e e' : Ecosystem} {package package' : String} :
    e.key package = e'.key package' ↔ e = e' ∧ package = package' := by
  constructor
  · intro hKey
    have hName := congrArg (fun key => key.toList.takeWhile (· ≠ ':')) hKey
    simp only [takeWhile_key] at hName
    obtain rfl := name_injective (String.toList_inj.1 hName)
    exact ⟨rfl, String.append_right_inj _ |>.1 hKey⟩
  · rintro ⟨rfl, rfl⟩
    rfl

theorem mem_all (e : Ecosystem) : e ∈ all := by
  cases e <;> decide

theorem isName_manifestName (e : Ecosystem) : Disk.IsName e.manifestName := by
  cases e <;> decide

theorem manifestName_injective : Function.Injective manifestName := by
  intro e e' hName
  cases e <;> cases e' <;> first | rfl | exact absurd hName (by decide)

end Ecosystem

namespace Manifest

open Disk

variable {disk disk' : Disk} {root root' : String} {e e' : Ecosystem}

/-! ### What is read -/

/-- The text of a manifest, if there is one. -/
def content? (disk : Disk) (root : String) (e : Ecosystem) : Option String :=
  ((disk.find? (Path.join root e.manifestName)).bind Entry.bytes?).bind Text.ofBytes?

/-- The dependencies that are read from the manifest of an ecosystem. -/
def loaded (disk : Disk) (root : String) (e : Ecosystem) : List Dependency :=
  match load disk root e with
  | .ok (some dependencies) => dependencies
  | _ => []

/-- A manifest that is missing, no text or malformed has no dependencies. -/
theorem loaded_eq (disk : Disk) (root : String) (e : Ecosystem) :
    loaded disk root e = ((content? disk root e).bind (parse? e)).getD [] := by
  rw [loaded, load, content?, PathText.ofText_string]
  cases hFind : disk.find? (Path.join root e.manifestName) with
  | none => rfl
  | some entry =>
      cases entry with
      | link => rfl
      | directory => rfl
      | file bytes modified =>
          simp only [Option.bind_some, Entry.bytes?]
          cases hText : Text.ofBytes? bytes with
          | none => rfl
          | some content =>
              simp only [Option.bind_some]
              cases hParse : parse? e content <;> rfl

/-- Dependencies are collected from each ecosystem in turn. -/
theorem collect_eq_loaded (disk : Disk) (root : String) :
    collect disk root = .ofList (Ecosystem.all.flatMap fun e =>
      (loaded disk root e).map fun (name, spec) => (e.key name, spec)) := by
  rw [collect]
  congr 1
  apply List.flatMap_congr
  intro e _
  rw [loaded]
  cases load disk root e with
  | error => rfl
  | ok dependencies? => cases dependencies? <;> rfl

/-- What a manifest adds to the dependencies, if there is one and it can be read. -/
def dependenciesIn (e : Ecosystem) (bytes? : Option (List UInt8)) : List (String × String) :=
  (((bytes?.bind Text.ofBytes?).bind (parse? e)).getD []).map fun (name, spec) => (e.key name, spec)

/-- The same by the bytes of the manifests, which is all that is used of them. -/
theorem collect_eq (disk : Disk) (root : String) :
    collect disk root = .ofList (Ecosystem.all.flatMap fun e =>
      dependenciesIn e ((disk.find? (Path.join root e.manifestName)).bind Entry.bytes?)) := by
  simp only [collect_eq_loaded, loaded_eq]
  rfl

/-! ### Keys of one ecosystem -/

theorem lookup_map_key (dependencies : List Dependency) (name : String) :
    (dependencies.map fun (package, spec) => (e'.key package, spec)).lookup (e.key name) =
      if e = e' then dependencies.lookup name else none := by
  induction dependencies with
  | nil => simp
  | cons dependency rest ih =>
      obtain ⟨package, spec⟩ := dependency
      rw [List.map_cons, lookup_cons_eq_ite, lookup_cons_eq_ite, ih]
      by_cases hEcosystem : e = e' <;> simp [hEcosystem, Ecosystem.key_inj]

/-- Among the dependencies of some ecosystems a key finds those of its own. -/
theorem lookup_flatMap_key (ecosystems : List Ecosystem)
    (dependencies : Ecosystem → List Dependency) (name : String) :
    (ecosystems.flatMap fun e' =>
        (dependencies e').map fun (package, spec) => (e'.key package, spec)).lookup (e.key name) =
      if e ∈ ecosystems then (dependencies e).lookup name else none := by
  induction ecosystems with
  | nil => simp
  | cons first rest ih =>
      rw [List.flatMap_cons, List.lookup_append, lookup_map_key, ih]
      by_cases hFirst : e = first
      · subst hFirst
        by_cases hRest : e ∈ rest <;> simp [hRest]
      · simp [hFirst]

/-- What is collected for a key is what its own manifest says. -/
theorem get?_collect (disk : Disk) (root : String) (e : Ecosystem) (name : String) :
    (collect disk root).get? (e.key name) = (Dictionary.ofList (loaded disk root e)).get? name := by
  rw [collect_eq_loaded, Dictionary.get?_ofList, Dictionary.get?_ofList, List.reverse_flatMap]
  have hReverse : (List.reverse ∘ fun e' => (loaded disk root e').map fun (package, spec) =>
      (Ecosystem.key e' package, spec)) = fun e' => (loaded disk root e').reverse.map
        fun (package, spec) => (Ecosystem.key e' package, spec) := by
    funext e'
    exact List.map_reverse.symm
  rw [hReverse, lookup_flatMap_key, if_pos (List.mem_reverse.2 e.mem_all)]

/-- Every entry belongs to an ecosystem. -/
theorem exists_key_of_get?_collect {key spec : String}
    (h : (collect disk root).get? key = some spec) : ∃ e name, key = Ecosystem.key e name := by
  have hMem := ((collect disk root).mem_keys_iff).2 ⟨spec, h⟩
  rw [collect_eq_loaded, Dictionary.ofList] at hMem
  rcases (Dictionary.mem_keys_foldl_insert ∅).1 hMem with hEmpty | hKey
  · simp [Dictionary.mem_keys_iff] at hEmpty
  · obtain ⟨entry, hEntry, rfl⟩ := List.mem_map.1 hKey
    obtain ⟨e, _, hEntry⟩ := List.mem_flatMap.1 hEntry
    obtain ⟨dependency, _, rfl⟩ := List.mem_map.1 hEntry
    exact ⟨e, dependency.1, rfl⟩

/-- A manifest is missing, is no text or is malformed. -/
inductive Silent (disk : Disk) (root : String) (e : Ecosystem) : Prop where
  | missing (hFind : ∀ bytes modified,
      disk.find? (Path.join root e.manifestName) ≠ some (.file bytes modified))
  | unreadable {bytes : List UInt8} {modified : Timestamp}
      (hFind : disk.find? (Path.join root e.manifestName) = some (.file bytes modified))
      (hText : Text.ofBytes? bytes = none)
  | malformed {content : String} (hContent : content? disk root e = some content)
      (hParse : parse? e content = none)

theorem Silent.loaded_eq_nil (h : Silent disk root e) : loaded disk root e = [] := by
  rw [loaded_eq]
  cases h with
  | missing hFind =>
      have hBytes : (disk.find? (Path.join root e.manifestName)).bind Entry.bytes? = none := by
        cases hEntry : disk.find? (Path.join root e.manifestName) with
        | none => rfl
        | some entry =>
            cases entry with
            | file bytes modified => exact absurd hEntry (hFind bytes modified)
            | link => rfl
            | directory => rfl
      rw [content?, hBytes]
      rfl
  | unreadable hFind hText =>
      rw [content?, hFind, Option.bind_some, Entry.bytes?, Option.bind_some, hText]
      rfl
  | malformed hContent hParse =>
      rw [hContent, Option.bind_some, hParse]
      rfl

/-! ### Changes to one manifest -/

/-- Roots with the same manifest have the same dependencies. -/
theorem loaded_congr (h : disk'.find? (Path.join root' e.manifestName) =
    disk.find? (Path.join root e.manifestName)) : loaded disk' root' e = loaded disk root e := by
  rw [loaded_eq, loaded_eq, content?, content?, h]

theorem bind_bytes?_eq_of_undisturbed {before after : Option Entry} (h : Undisturbed before after) :
    after.bind Entry.bytes? = before.bind Entry.bytes? := by
  cases h with
  | same => rfl
  | directory entries hBefore =>
      cases before with
      | none => rfl
      | some entry =>
          have hDirectory := hBefore entry rfl
          cases entry with
          | directory => rfl
          | file => cases hDirectory
          | link => cases hDirectory

/-- Writing or removing one manifest leaves the others as they are, unless they are links. -/
theorem loaded_of_changed {place : List String} {written : Ecosystem} (hLeads : disk.LeadsTo root place)
    (hChanged : Changed [place ++ [written.manifestName]] disk disk') (hOther : e ≠ written)
    (hLink : ¬disk.IsLinkAt (place ++ [e.manifestName])) :
    loaded disk' root e = loaded disk root e := by
  have hPlaces : place ++ [e.manifestName] ∉ [place ++ [written.manifestName]] := by
    rw [List.mem_singleton, List.append_cancel_left_eq, List.singleton_inj]
    exact fun hName => hOther (Ecosystem.manifestName_injective hName)
  have hLink' : ¬disk'.IsLinkAt (place ++ [e.manifestName]) := by
    rintro ⟨target, hAt⟩
    exact hLink ⟨target, (hChanged.at?_eq_some_iff hPlaces id).1 hAt⟩
  have hFind := hLeads.find?_join_eq_at? e.isName_manifestName hLink
  have hFind' := (hChanged.leadsTo hLeads).find?_join_eq_at? e.isName_manifestName hLink'
  rw [loaded_eq, loaded_eq, content?, content?, hFind, hFind',
    bind_bytes?_eq_of_undisturbed (hChanged.elsewhere _ hPlaces)]

/-! ### All manifests -/

/-- What is said for development counts more. -/
theorem get?_ofList_loaded_of_sections {content : String} {runtime development : List Dependency}
    (hKind : e = .npm ∨ e = .cargo) (hContent : content? disk root e = some content)
    (hSections : sections? e content = some (runtime, development)) (name : String) :
    (Dictionary.ofList (loaded disk root e)).get? name =
      (development.lookup name).or (runtime.lookup name) := by
  obtain ⟨hRuntime, hDevelopment⟩ := nodup_sections hSections
  rw [loaded_eq, hContent, Option.bind_some, parse?_eq_sections hKind, hSections, Option.map_some,
    Option.getD_some, Dictionary.get?_ofList_append, Dictionary.get?_ofList_of_nodup hRuntime,
    Dictionary.get?_ofList_of_nodup hDevelopment]

/-- The dependencies are the disjoint union of what the manifests declare, of each name the last.
Nothing but its own manifest decides about an ecosystem. -/
theorem collect_isolated (disk : Disk) (root : String) :
    (∀ key spec, (collect disk root).get? key = some spec ↔
      ∃ e name, key = Ecosystem.key e name ∧
        (Dictionary.ofList (loaded disk root e)).get? name = some spec) ∧
    (∀ e e' : Ecosystem, ∀ name name', e.key name = e'.key name' → e = e' ∧ name = name') ∧
    (∀ e : Ecosystem, Silent disk root e → ∀ name, (collect disk root).get? (e.key name) = none) ∧
    (∀ (disk' : Disk) (root' : String) (e : Ecosystem), disk'.find? (Path.join root' e.manifestName) =
        disk.find? (Path.join root e.manifestName) →
      ∀ name, (collect disk' root').get? (e.key name) = (collect disk root).get? (e.key name)) ∧
    (∀ (disk' : Disk) (place : List String) (written e : Ecosystem), disk.LeadsTo root place →
      Changed [place ++ [written.manifestName]] disk disk' → e ≠ written →
      ¬disk.IsLinkAt (place ++ [e.manifestName]) →
      ∀ name, (collect disk' root).get? (e.key name) = (collect disk root).get? (e.key name)) ∧
    (∀ (e : Ecosystem) content dependencies, e = .npm ∨ e = .cargo →
      content? disk root e = some content → parse? e content = some dependencies → ∃ runtime development,
        sections? e content = some (runtime, development) ∧
        ∀ name, (collect disk root).get? (e.key name) =
          (development.lookup name).or (runtime.lookup name)) := by
  refine ⟨fun key spec => ?_, fun e e' name name' => Ecosystem.key_inj.1, fun e hSilent name => ?_,
    fun disk' root' e hFind name => ?_,
    fun disk' place written e hLeads hChanged hOther hLink name => ?_,
    fun e content dependencies hKind hContent hParse => ?_⟩
  · constructor
    · intro h
      obtain ⟨e, name, rfl⟩ := exists_key_of_get?_collect h
      exact ⟨e, name, rfl, by rwa [get?_collect] at h⟩
    · rintro ⟨e, name, rfl, h⟩
      rwa [get?_collect]
  · rw [get?_collect, hSilent.loaded_eq_nil]
    rfl
  · rw [get?_collect, get?_collect, loaded_congr hFind]
  · rw [get?_collect, get?_collect, loaded_of_changed hLeads hChanged hOther hLink]
  · rw [parse?_eq_sections hKind] at hParse
    obtain ⟨⟨runtime, development⟩, hSections, _⟩ := Option.map_eq_some_iff.1 hParse
    refine ⟨runtime, development, hSections, fun name => ?_⟩
    rw [get?_collect, get?_ofList_loaded_of_sections hKind hContent hSections]

def packageText : String :=
  "\x7b\"dependencies\":\x7b\"go:x\":\"1\"\x7d,\"devDependencies\":\x7b\"go:x\":\"2\"\x7d\x7d"

/-- A package that is in both sections, beside a manifest that breaks off. -/
def packageEntries : List (String × Entry) :=
  [("p", .directory [("Cargo.toml", .file "[dependencies".toUTF8.toList .epoch),
    ("package.json", .file packageText.toUTF8.toList .epoch)])]

theorem wellFormed_packageEntries : Entry.WellFormed (.directory packageEntries) := by
  simp only [packageEntries, Entry.WellFormed, AllWellFormed]
  decide +kernel

def diskOfPackage : Disk where
  entries := packageEntries
  wellFormed := wellFormed_packageEntries

/-- The package is the one for development, with the manifest that breaks off and without it. -/
theorem collect_isolated_package :
    (collect diskOfPackage "/p").get? (Ecosystem.npm.key "go:x") = some "2" ∧
    (∀ name, (collect diskOfPackage "/p").get? (Ecosystem.cargo.key name) = none) ∧
    (collect (diskOfPackage.remove ["p", "Cargo.toml"]) "/p").get? (Ecosystem.npm.key "go:x") =
      some "2" := by
  obtain ⟨_, _, hSilent, _, hElsewhere, hSections⟩ := collect_isolated diskOfPackage "/p"
  have hContent : content? diskOfPackage "/p" .npm = some packageText := by decide +kernel
  have hParse : parse? .npm packageText = some [("go:x", "1"), ("go:x", "2")] := by decide +kernel
  have hTwo : sections? .npm packageText = some ([("go:x", "1")], [("go:x", "2")]) := by decide +kernel
  have hPackage : (collect diskOfPackage "/p").get? (Ecosystem.npm.key "go:x") = some "2" := by
    obtain ⟨runtime, development, hSame, hGet⟩ := hSections _ _ _ (.inl rfl) hContent hParse
    cases hTwo.symm.trans hSame
    exact hGet "go:x"
  have hBroken : content? diskOfPackage "/p" .cargo = some "[dependencies" := by decide +kernel
  have hCargo : Silent diskOfPackage "/p" .cargo := .malformed hBroken (by decide +kernel)
  have hLeads : diskOfPackage.LeadsTo "/p" ["p"] := ⟨by decide +kernel, _, rfl⟩
  have hChanged : Changed [["p"] ++ [Ecosystem.cargo.manifestName]] diskOfPackage
      (diskOfPackage.remove ["p", "Cargo.toml"]) := by
    apply changed_remove
    rintro _ ⟨⟩
    exact ⟨_, _, rfl⟩
  have hLink : ¬diskOfPackage.IsLinkAt (["p"] ++ [Ecosystem.npm.manifestName]) := by
    rintro ⟨_, ⟨⟩⟩
  have hKept := hElsewhere _ _ .cargo .npm hLeads hChanged (by decide) hLink "go:x"
  exact ⟨hPackage, hSilent _ hCargo, hKept.trans hPackage⟩

end Manifest

end SourceSurvey
