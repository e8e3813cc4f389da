import SourceSurvey.Manifest
import SourceSurvey.Proofs.Toml.Table

/-!
Sections of manifests. In some ecosystems a manifest tells what a project needs to run from what it
needs besides for development. No name comes twice in a section.
-/

namespace SourceSurvey.Manifest

variable {e : Ecosystem}

def packageSection (doc : Json) (sectionName : String) : List Dependency :=
  match doc.sorted.get? sectionName with
  | some (.obj members) =>
    members.map fun (name, spec) =>
      match spec with
      | .str s => (name, s)
      | spec => (name, spec.compact)
  | _ => []

def crateSection (doc : Toml) (sectionName : String) : List Dependency :=
  (((doc.get? sectionName).bind Toml.entries?).getD []).map fun (name, spec) =>
    (name, crateVersion spec)

/-- What a project needs to run, and what it needs besides for development, of a manifest that tells
them apart. -/
def sections? : Ecosystem → String → Option (List Dependency × List Dependency)
  | .npm, content =>
    match Json.parse content.toList with
    | .error _ => none
    | .ok doc =>
      if doc.depth ≤ maxDepth then
        some (packageSection doc "dependencies", packageSection doc "devDependencies")
      else none
  | .cargo, content =>
    (Toml.parse? content).map fun doc =>
      (crateSection doc "dependencies", crateSection doc "dev-dependencies")
  | _, _ => none

/-- Such a manifest is read section by section. -/
theorem parse?_eq_sections {content : String} (h : e = .npm ∨ e = .cargo) :
    parse? e content = (sections? e content).map fun sections => sections.1 ++ sections.2 := by
  rcases h with rfl | rfl
  · rw [parse?, ofPackageJson?, sections?]
    cases Json.parse content.toList with
    | error => rfl
    | ok doc =>
        dsimp only
        split
        · simp only [packageSections, List.flatMap_cons, List.flatMap_nil, List.append_nil]
          rfl
        · rfl
  · rw [parse?, ofCargoToml?, sections?]
    cases Toml.parse? content with
    | none => rfl
    | some doc => simp [crateSections, crateSection]

/-- Members of an object are sorted when it is read. -/
theorem keysSorted_sortedMembers (members : List (String × Json)) {acc : List (String × Json)}
    (h : KeysSorted acc) : KeysSorted (Json.sortedMembers members acc) := by
  induction members generalizing acc with
  | nil => rwa [Json.sortedMembers]
  | cons member rest ih =>
      rw [Json.sortedMembers]
      exact ih (keysSorted_insertEntry h)

theorem mem_sortedMembers {members acc : List (String × Json)} {e : String × Json}
    (h : e ∈ Json.sortedMembers members acc) : e ∈ acc ∨ ∃ j : Json, e.2 = j.sorted := by
  induction members generalizing acc with
  | nil =>
      rw [Json.sortedMembers] at h
      exact .inl h
  | cons member rest ih =>
      rw [Json.sortedMembers] at h
      rcases ih h with hAcc | hSorted
      · rcases mem_insertEntry hAcc with rfl | hOld
        · exact .inr ⟨member.2, rfl⟩
        · exact .inl hOld
      · exact .inr hSorted

theorem keysSorted_of_sorted_eq {j : Json} {members : List (String × Json)}
    (h : j.sorted = .obj members) : KeysSorted members := by
  cases j with
  | obj unsorted =>
      rw [Json.sorted] at h
      cases h
      exact keysSorted_sortedMembers unsorted .nil
  | _ => simp [Json.sorted] at h

/-- No section of a package names a dependency twice. -/
theorem nodup_packageSection (doc : Json) (sectionName : String) :
    ((packageSection doc sectionName).map (·.1)).Nodup := by
  rw [packageSection]
  split
  · rename_i members hSection
    have hSorted : KeysSorted members := by
      cases doc with
      | obj unsorted =>
          rw [Json.sorted, Json.get?] at hSection
          have hLookup := (mem_iff_lookup_eq_some
            (keysSorted_sortedMembers unsorted .nil).nodup_keys).2 hSection
          rcases mem_sortedMembers hLookup with hNil | ⟨j, hJ⟩
          · cases hNil
          · exact keysSorted_of_sorted_eq hJ.symm
      | _ => simp [Json.sorted, Json.get?] at hSection
    have hNames : (members.map fun (name, spec) =>
        match spec with
        | Json.str s => (name, s)
        | spec => (name, spec.compact)).map (·.1) = members.map (·.1) := by
      rw [List.map_map]
      apply List.map_congr_left
      rintro ⟨name, spec⟩ _
      cases spec <;> rfl
    rw [hNames]
    exact hSorted.nodup_keys
  · exact .nil

/-- Nor does a section of a crate, since tables are finished with sorted keys. -/
theorem nodup_crateSection {content : String} {doc : Toml} (h : Toml.parse? content = some doc)
    (sectionName : String) : ((crateSection doc sectionName).map (·.1)).Nodup := by
  rw [crateSection, List.map_map]
  cases hGet : doc.get? sectionName with
  | none => exact .nil
  | some t =>
      cases hEntries : t.entries? with
      | none =>
          simp [hEntries]
      | some entries =>
          have hSorted := Toml.sorted_of_parse? h hGet entries hEntries
          simpa [hEntries, Function.comp_def] using hSorted.nodup_keys

/-- So each dependency has one version in each section. -/
theorem nodup_sections {content : String} {runtime development : List Dependency}
    (h : sections? e content = some (runtime, development)) :
    (runtime.map (·.1)).Nodup ∧ (development.map (·.1)).Nodup := by
  cases e with
  | npm =>
      rw [sections?] at h
      split at h
      · cases h
      · split at h
        · cases h
          exact ⟨nodup_packageSection _ _, nodup_packageSection _ _⟩
        · cases h
  | cargo =>
      obtain ⟨doc, hDoc, hSections⟩ := Option.map_eq_some_iff.1 h
      cases hSections
      exact ⟨nodup_crateSection hDoc _, nodup_crateSection hDoc _⟩
  | pip => cases h
  | go => cases h

end SourceSurvey.Manifest
