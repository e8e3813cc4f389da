import SourceSurvey.Framework
import SourceSurvey.Proofs.Except
import SourceSurvey.Regex.Standard

/-!
The frameworks of a catalog are the built-in ones and those that have been added.
-/

namespace SourceSurvey.Catalog

theorem name_of_mem_extend {catalog : Catalog} {name : String} {signatures : List Regex}
    {f : Framework} (h : f ∈ catalog.extend name signatures) :
    f.name = name ∨ f.name ∈ catalog.map (·.name) := by
  rw [extend] at h
  split at h
  · obtain ⟨g, hG, hSame⟩ := List.mem_map.1 h
    right
    have hName : f.name = g.name := by
      rw [← hSame]
      split <;> rfl
    exact hName ▸ List.mem_map_of_mem hG
  · rcases List.mem_append.1 h with hOld | hNew
    · exact .inr (List.mem_map_of_mem hOld)
    · left
      rw [List.mem_singleton.1 hNew]

/-- No framework is in a catalog unless it is built in or named in the settings. -/
theorem name_of_mem_withExtras {extra : List (String × List String)} {catalog : Catalog}
    (h : withExtras extra = .ok catalog) :
    ∀ f ∈ catalog, f.name ∈ builtin.map (·.name) ∨ f.name ∈ extra.map (·.1) := by
  refine Except.foldlM_invariant (p := fun catalog => ∀ f ∈ catalog,
    f.name ∈ builtin.map (·.name) ∨ f.name ∈ extra.map (·.1)) ?_ ?_ h
  · intro entry hEntry catalog extended hNames hExtend f hF
    obtain ⟨signatures, _, hSame⟩ := Except.bind_eq_ok_iff.1 hExtend
    cases hSame
    rcases name_of_mem_extend hF with hNew | hOld
    · exact .inr (hNew ▸ List.mem_map_of_mem hEntry)
    · obtain ⟨g, hG, hName⟩ := List.mem_map.1 hOld
      exact hName ▸ hNames g hG
  · exact fun f hF => .inl (List.mem_map_of_mem hF)

end SourceSurvey.Catalog
