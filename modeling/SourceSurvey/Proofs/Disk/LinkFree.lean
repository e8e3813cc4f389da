import SourceSurvey.Proofs.Disk.Place

/-!
Trees without links. From the directory at the top of such a tree names lead straight down, so that
the tree alone settles what lies at the end of them.
-/

namespace SourceSurvey.Disk

/-- Nothing below the entry is a link, nor is the entry itself. -/
def Entry.LinkFree (e : Entry) : Prop :=
  ∀ names target, e.at? names ≠ some (.link target)

theorem Entry.linkFree_file (bytes : List UInt8) (modified : Timestamp) :
    (file bytes modified).LinkFree := by
  intro names target
  cases names <;> simp [at?]

theorem Entry.linkFree_directory {entries : List (String × Entry)}
    (h : ∀ entry ∈ entries, entry.2.LinkFree) : (directory entries).LinkFree := by
  intro names target hLink
  cases names with
  | nil => simp [at?] at hLink
  | cons name names =>
      simp only [at?, Option.bind_eq_some_iff] at hLink
      obtain ⟨below, hLookup, hLink⟩ := hLink
      exact h _ (mem_of_lookup hLookup) names target hLink

/-- What is found in a tree without links is no link. -/
theorem Entry.LinkFree.not_isLink {e below : Entry} {names : List String} (h : e.LinkFree)
    (hAt : e.at? names = some below) : ¬below.IsLink := by
  cases below with
  | link target => exact absurd hAt (h names target)
  | file => exact id
  | directory => exact id

variable {disk : Disk} {place names target : List String} {tree : Entry}

theorem at?_place_append (hTree : disk.root.at? place = some tree) (names : List String) :
    disk.root.at? (place ++ names) = tree.at? names := by
  rw [Entry.at?_append, hTree, Option.bind_some]

/-- Without links names lead just where they say, if there is anything. -/
theorem lead_eq_ok_iff (hTree : disk.root.at? place = some tree) (hFree : tree.LinkFree) :
    disk.lead place names = .ok target ↔
      target = place ++ names ∧ ∃ e, tree.at? names = some e := by
  induction names using List.reverseRecOn generalizing target with
  | nil => simp [Entry.at?, eq_comm]
  | append_singleton names name ih =>
      constructor
      · intro h
        obtain ⟨there, entries, e, hThere, hAt, hLookup⟩ := exists_entry_of_lead_concat h
        obtain ⟨rfl, _⟩ := ih.1 hThere
        rw [at?_place_append hTree] at hAt
        have hBelow := Entry.at?_concat_eq_some_iff.2 ⟨entries, hAt, hLookup⟩
        have hLink := hFree.not_isLink hBelow
        rw [lead_concat hThere ((at?_place_append hTree names).trans hAt) hLookup hLink] at h
        exact ⟨by rw [← Except.ok.inj h, List.append_assoc], e, hBelow⟩
      · intro h
        obtain ⟨rfl, e, hBelow⟩ := h
        obtain ⟨entries, hAt, hLookup⟩ := Entry.at?_concat_eq_some_iff.1 hBelow
        have hLink := hFree.not_isLink hBelow
        rw [← List.append_assoc]
        exact lead_concat (ih.2 ⟨rfl, _, hAt⟩) ((at?_place_append hTree names).trans hAt) hLookup hLink

/-- In a tree without links to follow names is to look them up. -/
theorem below?_eq_at? (hTree : disk.root.at? place = some tree) (hFree : tree.LinkFree)
    (names : List String) : disk.below? place names = tree.at? names := by
  apply Option.ext
  intro e
  rw [below?_eq_some_iff]
  constructor
  · intro h
    obtain ⟨target, hLead, hAt⟩ := h
    obtain ⟨rfl, _⟩ := (lead_eq_ok_iff hTree hFree).1 hLead
    rwa [← at?_place_append hTree]
  · intro hAt
    exact ⟨place ++ names, (lead_eq_ok_iff hTree hFree).2 ⟨rfl, e, hAt⟩,
      (at?_place_append hTree names).trans hAt⟩

/-- Without links no way leads back to where it has been. -/
theorem not_leadsBack (hTree : disk.root.at? place = some tree) (hFree : tree.LinkFree)
    (names : List String) : ¬disk.LeadsBack place names := by
  intro hBack
  obtain ⟨⟨before, name, there, text, rfl, hLead, hLink⟩, _⟩ := hBack
  obtain ⟨rfl, _⟩ := (lead_eq_ok_iff hTree hFree).1 hLead
  rw [List.append_assoc, at?_place_append hTree] at hLink
  exact hFree _ _ hLink

theorem straight_of_linkFree (hTree : disk.root.at? place = some tree) (hFree : tree.LinkFree)
    (names : List String) : disk.Straight place names :=
  fun beginning _ => not_leadsBack hTree hFree beginning

end SourceSurvey.Disk
