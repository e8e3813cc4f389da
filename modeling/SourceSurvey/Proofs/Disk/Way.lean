import SourceSurvey.Proofs.Disk.Resolve
import Mathlib.Data.List.Induction

/-!
The ways that a walk may take, name by name from its start. They are the names that lead somewhere,
of which no beginning is skipped and no beginning is a link back to a directory that the way has
passed through.
-/

namespace SourceSurvey.Disk

variable {τ : Type} {skip : List τ → Bool}

/-- No beginning of the names is skipped. -/
def Kept (skip : List τ → Bool) (names : List τ) : Prop :=
  ∀ beginning, beginning <+: names → beginning ≠ [] → skip beginning = false

/-- Names are kept when those before the last are, and all of them together. -/
theorem kept_concat {names : List τ} {name : τ} :
    Kept skip (names ++ [name]) ↔ Kept skip names ∧ skip (names ++ [name]) = false := by
  constructor
  · intro h
    exact ⟨fun beginning hPrefix => h beginning (hPrefix.trans (List.prefix_append _ _)),
      h _ List.prefix_rfl (by simp)⟩
  · intro h beginning hPrefix hNe
    obtain ⟨hNames, hLast⟩ := h
    rcases List.prefix_concat_iff.1 hPrefix with rfl | hPrefix
    · exact hLast
    · exact hNames beginning hPrefix hNe

theorem kept_nil : Kept skip [] := by
  intro beginning hPrefix hNe
  exact absurd (List.prefix_nil.1 hPrefix) hNe

variable [DecidableEq τ] [LT τ] [PathText τ] {disk : Disk τ} {start : List τ}

def IsDirectoryAt (disk : Disk τ) (place : List τ) : Prop :=
  ∃ entries, disk.root.at? place = some (.directory entries)

/-- A path to a directory leads to its place. -/
theorem exists_locate_of_isDirectory {path : τ} (h : disk.isDirectory path = true) :
    ∃ place, disk.locate path = .ok place ∧ disk.IsDirectoryAt place := by
  rw [isDirectory, find?] at h
  cases hLocate : disk.locate path with
  | error => simp [hLocate] at h
  | ok place =>
      cases hAt : disk.root.at? place with
      | none => simp [hLocate, hAt] at h
      | some e =>
          cases e with
          | file => simp [hLocate, hAt] at h
          | link => simp [hLocate, hAt] at h
          | directory entries => exact ⟨place, rfl, entries, hAt⟩

/-- The names from the start of a walk, the place that they lead to and the places of the
directories on the way, the latest first. -/
inductive Way (disk : Disk τ) (skip : List τ → Bool) (start : List τ) :
    List τ → List τ → List (List τ) → Prop
  | start : Way disk skip start [] start []
  | child {names place : List τ} {above : List (List τ)}
      {entries : List (τ × Entry τ)} {name : τ} {e : Entry τ}
      (before : Way disk skip start names place above)
      (hAt : disk.root.at? place = some (.directory entries))
      (hLookup : entries.lookup name = some e) (hLink : ¬e.IsLink)
      (hKept : skip (names ++ [name]) = false) :
      Way disk skip start (names ++ [name]) (place ++ [name]) (place :: above)
  | link {names place target : List τ} {above : List (List τ)}
      {entries : List (τ × Entry τ)} {name text : τ}
      (before : Way disk skip start names place above)
      (hAt : disk.root.at? place = some (.directory entries))
      (hLookup : entries.lookup name = some (.link text))
      (hKept : skip (names ++ [name]) = false)
      (hLead : disk.lead start (names ++ [name]) = .ok target)
      (hFresh : disk.IsDirectoryAt target → target ∉ place :: above) :
      Way disk skip start (names ++ [name]) target (place :: above)

/-- What the last name stands for is itself a link. -/
def EndsInLink (disk : Disk τ) (start names : List τ) : Prop :=
  ∃ before name place text, names = before ++ [name] ∧ disk.lead start before = .ok place ∧
    disk.root.at? (place ++ [name]) = some (.link text)

/-- The last name is a link to a directory that the names before it have passed through. -/
def LeadsBack (disk : Disk τ) (start names : List τ) : Prop :=
  disk.EndsInLink start names ∧ ∃ earlier place, earlier <+: names ∧ earlier ≠ names ∧
    disk.lead start earlier = .ok place ∧ disk.lead start names = .ok place

/-- No beginning of the names leads back. -/
def Straight (disk : Disk τ) (start names : List τ) : Prop :=
  ∀ beginning, beginning <+: names → ¬disk.LeadsBack start beginning

theorem straight_concat {names : List τ} {name : τ} :
    disk.Straight start (names ++ [name]) ↔
      disk.Straight start names ∧ ¬disk.LeadsBack start (names ++ [name]) := by
  constructor
  · intro h
    exact ⟨fun beginning hPrefix => h beginning (hPrefix.trans (List.prefix_append _ _)),
      h _ List.prefix_rfl⟩
  · intro h beginning hPrefix
    obtain ⟨hNames, hLast⟩ := h
    rcases List.prefix_concat_iff.1 hPrefix with rfl | hPrefix
    · exact hLast
    · exact hNames beginning hPrefix

theorem straight_nil : disk.Straight start [] := by
  intro beginning hPrefix hBack
  obtain ⟨⟨before, name, _, _, hNames, _⟩, _⟩ := hBack
  rw [List.prefix_nil.1 hPrefix] at hNames
  simp at hNames

/-- One name more leads back just if it is a link to where some of the earlier names lead. -/
theorem leadsBack_concat {names : List τ} {name : τ} :
    disk.LeadsBack start (names ++ [name]) ↔ disk.EndsInLink start (names ++ [name]) ∧
      ∃ earlier place, earlier <+: names ∧ disk.lead start earlier = .ok place ∧
        disk.lead start (names ++ [name]) = .ok place := by
  apply and_congr_right
  intro _
  apply exists_congr
  intro earlier
  apply exists_congr
  intro place
  constructor
  · intro h
    obtain ⟨hPrefix, hNe, hLeads⟩ := h
    rcases List.prefix_concat_iff.1 hPrefix with hSame | hPrefix
    · exact absurd hSame hNe
    · exact ⟨hPrefix, hLeads⟩
  · intro h
    obtain ⟨hPrefix, hLeads⟩ := h
    refine ⟨hPrefix.trans (List.prefix_append _ _), ?_, hLeads⟩
    intro hSame
    subst hSame
    exact absurd hPrefix.length_le (by simp)

/-- Whether names end in a link is told by the last of them, in the directory where the others
lead. -/
theorem endsInLink_concat {names place : List τ} {entries : List (τ × Entry τ)}
    {name : τ} (hLead : disk.lead start names = .ok place)
    (hAt : disk.root.at? place = some (.directory entries)) :
    disk.EndsInLink start (names ++ [name]) ↔ ∃ text, entries.lookup name = some (.link text) := by
  constructor
  · intro h
    obtain ⟨before, last, there, text, hNames, hThere, hText⟩ := h
    obtain ⟨hBefore, hName⟩ := List.append_inj' hNames rfl
    subst hBefore
    have hLast : name = last := by simpa using hName
    subst hLast
    rw [hLead] at hThere
    cases hThere
    exact ⟨text, by rw [← Entry.at?_concat hAt, hText]⟩
  · intro h
    obtain ⟨text, hLookup⟩ := h
    exact ⟨names, name, place, text, rfl, hLead, by rw [Entry.at?_concat hAt, hLookup]⟩

variable {names place : List τ} {above : List (List τ)}

/-- A way ends where its names lead. -/
theorem Way.lead_eq (h : Way disk skip start names place above) :
    disk.lead start names = .ok place := by
  induction h with
  | start => exact lead_nil disk start
  | child _ hAt hLookup hLink _ ih => exact lead_concat ih hAt hLookup hLink
  | link _ _ _ _ hLead _ _ => exact hLead

/-- The names on a way are those of entries of directories. -/
theorem Way.isName (h : Way disk skip start names place above) : ∀ name ∈ names, IsName name := by
  have hStep {before there : List τ} {entries : List (τ × Entry τ)} {name : τ}
      {e : Entry τ} (hAt : disk.root.at? there = some (.directory entries))
      (hLookup : entries.lookup name = some e) (hBefore : ∀ n ∈ before, IsName n) :
      ∀ n ∈ before ++ [name], IsName n := by
    have hFormed := (disk.wellFormed.at? hAt).1.2
    have hName := (allWellFormed_iff.1 hFormed _ (Entry.mem_of_lookup hLookup)).1
    exact List.forall_mem_append.2 ⟨hBefore, by simpa using hName⟩
  induction h with
  | start => simp
  | child _ hAt hLookup _ _ ih => exact hStep hAt hLookup ih
  | link _ hAt hLookup _ _ _ ih => exact hStep hAt hLookup ih

/-- The places that a way has passed through are those that its beginnings lead to. -/
theorem Way.mem_passed (h : Way disk skip start names place above) {q : List τ} :
    q ∈ place :: above ↔ ∃ earlier, earlier <+: names ∧ disk.lead start earlier = .ok q := by
  have hStep {before : List τ} {name : τ} {passed : List (List τ)}
      {last : List τ} (hLast : disk.lead start (before ++ [name]) = .ok last)
      (hPassed : q ∈ passed ↔ ∃ earlier, earlier <+: before ∧ disk.lead start earlier = .ok q) :
      q ∈ last :: passed ↔
        ∃ earlier, earlier <+: before ++ [name] ∧ disk.lead start earlier = .ok q := by
    simp [List.prefix_concat_iff, or_and_right, exists_or, hLast, hPassed, eq_comm]
  induction h with
  | start => simp [List.prefix_nil, eq_comm]
  | child before hAt hLookup hLink _ ih =>
      exact hStep (lead_concat before.lead_eq hAt hLookup hLink) ih
  | link _ _ _ _ hLead _ ih => exact hStep hLead ih

theorem Way.kept (h : Way disk skip start names place above) : Kept skip names := by
  induction h with
  | start => exact kept_nil
  | child _ _ _ _ hKept ih => exact kept_concat.2 ⟨ih, hKept⟩
  | link _ _ _ hKept _ _ ih => exact kept_concat.2 ⟨ih, hKept⟩

theorem Way.straight (h : Way disk skip start names place above) :
    disk.Straight start names := by
  induction h with
  | start => exact straight_nil
  | child before hAt hLookup hLink _ ih =>
      refine straight_concat.2 ⟨ih, ?_⟩
      intro hBack
      obtain ⟨text, hText⟩ := (endsInLink_concat before.lead_eq hAt).1 hBack.1
      rw [hLookup] at hText
      cases hText
      exact hLink trivial
  | @link _ _ target _ _ _ _ before _ _ _ hLead hFresh ih =>
      refine straight_concat.2 ⟨ih, ?_⟩
      intro hBack
      obtain ⟨_, earlier, q, ⟨after, rfl⟩, hEarlier, hTarget⟩ := leadsBack_concat.1 hBack
      rw [hLead] at hTarget
      cases hTarget
      rw [List.append_assoc] at hLead
      obtain ⟨q, entries, hQ, hDirectory⟩ := directory_of_lead_append hLead (by simp)
      rw [hEarlier] at hQ
      cases hQ
      exact hFresh ⟨entries, hDirectory⟩ (before.mem_passed.2 ⟨earlier, ⟨after, rfl⟩, hEarlier⟩)

/-- Names that lead somewhere, none of them skipped and none leading back, are a way. -/
theorem exists_way (hLead : disk.lead start names = .ok place) (hKept : Kept skip names)
    (hStraight : disk.Straight start names) : ∃ above, Way disk skip start names place above := by
  induction names using List.reverseRecOn generalizing place with
  | nil =>
      cases hLead
      exact ⟨[], Way.start⟩
  | append_singleton names name ih =>
      obtain ⟨there, entries, e, hThere, hAt, hLookup⟩ := exists_entry_of_lead_concat hLead
      obtain ⟨hKept, hLast⟩ := kept_concat.1 hKept
      obtain ⟨hStraight, hBack⟩ := straight_concat.1 hStraight
      obtain ⟨above, hWay⟩ := ih hThere hKept hStraight
      by_cases hLink : e.IsLink
      · cases e with
        | file => exact absurd hLink id
        | directory => exact absurd hLink id
        | link text =>
            refine ⟨_, Way.link hWay hAt hLookup hLast hLead fun _ hPassed => hBack ?_⟩
            obtain ⟨earlier, hPrefix, hEarlier⟩ := hWay.mem_passed.1 hPassed
            exact leadsBack_concat.2 ⟨(endsInLink_concat hThere hAt).2 ⟨text, hLookup⟩,
              earlier, place, hPrefix, hEarlier, hLead⟩
      · rw [lead_concat hThere hAt hLookup hLink] at hLead
        cases hLead
        exact ⟨_, Way.child hWay hAt hLookup hLink hLast⟩

end SourceSurvey.Disk
