import SourceSurvey.Disk.Lookup

/-!
Where names lead. What a way of names reaches is settled by its beginnings: the way to a name goes
on from the place of the directory that the names before it lead to.
-/

namespace SourceSurvey

variable {τ : Type} [DecidableEq τ]

namespace Disk.Entry

theorem at?_append (e : Entry τ) (before after : List τ) :
    e.at? (before ++ after) = (e.at? before).bind (·.at? after) := by
  induction before generalizing e with
  | nil => simp [at?]
  | cons name before ih =>
      cases e with
      | directory entries =>
          cases h : entries.lookup name with
          | none => simp [at?, h]
          | some below => simp [at?, h, ih]
      | file => simp [at?]
      | link => simp [at?]

/-- What a directory at some place holds under a name is found one name further. -/
theorem at?_concat {e : Entry τ} {place : List τ} {entries : List (τ × Entry τ)}
    (h : e.at? place = some (.directory entries)) (name : τ) :
    e.at? (place ++ [name]) = entries.lookup name := by
  rw [at?_append, h]
  cases hl : entries.lookup name <;> simp [at?, hl]

/-- An entry with a last name is an entry of a directory. -/
theorem at?_concat_eq_some_iff {e below : Entry τ} {names : List τ} {name : τ} :
    e.at? (names ++ [name]) = some below ↔
      ∃ entries, e.at? names = some (.directory entries) ∧ entries.lookup name = some below := by
  rw [at?_append, Option.bind_eq_some_iff]
  constructor
  · intro h
    obtain ⟨above, hAt, hBelow⟩ := h
    cases above with
    | directory entries =>
        refine ⟨entries, hAt, ?_⟩
        rw [← @at?_concat _ _ _ [] entries rfl]
        exact hBelow
    | file => simp [at?] at hBelow
    | link => simp [at?] at hBelow
  · intro h
    obtain ⟨entries, hAt, hLookup⟩ := h
    exact ⟨_, hAt, (@at?_concat _ _ _ [] entries rfl name).trans hLookup⟩

def IsLink : Entry τ → Prop
  | .link _ => True
  | _ => False

theorem lookup_of_mem [LT τ] [Std.Irrefl (α := τ) (· < ·)] {entries : List (τ × Entry τ)}
    (h : KeysSorted entries) {name : τ} {e : Entry τ} (hMem : (name, e) ∈ entries) :
    entries.lookup name = some e := by
  induction entries with
  | nil => simp at hMem
  | cons first rest ih =>
      obtain ⟨key, value⟩ := first
      rw [KeysSorted, List.pairwise_cons] at h
      rcases List.mem_cons.1 hMem with hHead | hRest
      · cases hHead
        simp
      · have hNe : name ≠ key := fun hSame => Std.Irrefl.irrefl key (hSame ▸ h.1 _ hRest)
        rw [List.lookup_cons, beq_eq_false_iff_ne.2 hNe]
        exact ih h.2 hRest

variable [LT τ] [PathText τ]

/-- All that can be found in a well-formed tree is well formed itself, and it is found under
names. -/
theorem WellFormed.at? {e below : Entry τ} {names : List τ} (h : e.WellFormed)
    (hAt : e.at? names = some below) :
    below.WellFormed ∧ ∀ name ∈ names, IsName name := by
  induction names generalizing e with
  | nil =>
      have hSame : e = below := by simpa [Entry.at?] using hAt
      exact ⟨hSame ▸ h, by simp⟩
  | cons name names ih =>
      cases e with
      | directory entries =>
          simp only [Entry.at?, Option.bind_eq_some_iff] at hAt
          obtain ⟨next, hLookup, hAt⟩ := hAt
          obtain ⟨hName, hNext⟩ := allWellFormed_iff.1 h.2 _ (mem_of_lookup hLookup)
          obtain ⟨hBelow, hNames⟩ := ih hNext hAt
          exact ⟨hBelow, by simpa using ⟨hName, hNames⟩⟩
      | file => simp [Entry.at?] at hAt
      | link => simp [Entry.at?] at hAt

end Disk.Entry

namespace Disk

variable [LT τ] [PathText τ] {disk : Disk τ}

/-- Walking along steps leads to a place, from where any further steps are walked through the links
that are left, or it fails, and then however the steps go on. Further steps may lead to a name that
is not there yet, the first ones may not. -/
def Continues (disk : Disk τ) (new : Bool)
    (go goOn : List τ → List (Path.Component τ) → Except Failure (List τ))
    (here : List τ) (steps : List (Path.Component τ)) : Prop :=
  (∃ place left, go here steps = .ok place ∧
    ∀ more, more ≠ [] → goOn here (steps ++ more) = resolve disk new left place more) ∨
  ∃ e, go here steps = .error e ∧ ∀ more, more ≠ [] → goOn here (steps ++ more) = .error e

/-- One more step can be taken after any steps, provided that this holds behind each link too. -/
theorem continues_walkSteps {new : Bool} (links : Nat)
    {follow followOn : List τ → List (Path.Component τ) → Except Failure (List τ)}
    (hGo : resolve disk new links = walkSteps disk new followOn)
    (hFollow : ∀ here steps, Continues disk new follow followOn here steps)
    (here : List τ) (steps : List (Path.Component τ)) :
    Continues disk new (walkSteps disk false follow) (walkSteps disk new followOn) here steps := by
  induction steps generalizing here with
  | nil => exact Or.inl ⟨here, links, by simp [walkSteps], fun more _ => by simp [hGo]⟩
  | cons step rest ih =>
      cases hAt : disk.root.at? here with
      | none => exact Or.inr ⟨.notDirectory, by simp [walkSteps, hAt]⟩
      | some e =>
          cases e with
          | file => exact Or.inr ⟨.notDirectory, by simp [walkSteps, hAt]⟩
          | link => exact Or.inr ⟨.notDirectory, by simp [walkSteps, hAt]⟩
          | directory entries =>
              cases step with
              | root => simpa [Continues, walkSteps, hAt] using ih []
              | current => simpa [Continues, walkSteps, hAt] using ih here
              | parent => simpa [Continues, walkSteps, hAt] using ih here.dropLast
              | name name =>
                  cases hLookup : entries.lookup name with
                  | none =>
                      refine Or.inr ⟨.notFound, by simp [walkSteps, hAt, hLookup], ?_⟩
                      intro more hMore
                      simp [walkSteps, hAt, hLookup, hMore]
                  | some below =>
                      cases below with
                      | link target =>
                          simpa [Continues, walkSteps, hAt, hLookup] using
                            hFollow (if PathText.startsWith target "/" then [] else here)
                              (Disk.steps target ++ rest)
                      | file =>
                          simpa [Continues, walkSteps, hAt, hLookup] using ih (here ++ [name])
                      | directory =>
                          simpa [Continues, walkSteps, hAt, hLookup] using ih (here ++ [name])

/-- Steps that lead somewhere can be continued from there, with some of the links that are left. -/
theorem continues_resolve (new : Bool) (links : Nat) (here : List τ)
    (steps : List (Path.Component τ)) :
    Continues disk new (resolve disk false links) (resolve disk new links) here steps := by
  induction links generalizing here steps with
  | zero =>
      exact continues_walkSteps 0 rfl
        (fun _ _ => Or.inr ⟨.tooManyLinks, rfl, fun _ _ => rfl⟩) here steps
  | succ links ih => exact continues_walkSteps (links + 1) rfl ih here steps

/-- However many links may be followed, the steps themselves are walked in the same way. -/
theorem exists_follow (disk : Disk τ) (new : Bool) (links : Nat) :
    ∃ follow, resolve disk new links = walkSteps disk new follow := by
  cases links with
  | zero => exact ⟨_, rfl⟩
  | succ links => exact ⟨_, rfl⟩

/-- The place that names lead to, links followed as when something is opened there. -/
def lead (disk : Disk τ) (start names : List τ) : Except Failure (List τ) :=
  resolve disk false maxLinks start (names.map .name)

@[simp]
theorem lead_nil (disk : Disk τ) (start : List τ) : disk.lead start [] = .ok start := rfl

variable {start before after names place target : List τ} {name : τ}

/-- Names that follow others are followed from where these lead. -/
theorem lead_append (h : disk.lead start before = .ok place) :
    ∃ left, ∀ after, disk.lead start (before ++ after) =
      resolve disk false left place (after.map .name) := by
  rcases continues_resolve false maxLinks start (before.map .name) with
    ⟨there, left, hThere, hMore⟩ | ⟨e, hError, _⟩
  · rw [lead, hThere] at h
    cases h
    refine ⟨left, fun after => ?_⟩
    cases after with
    | nil =>
        obtain ⟨follow, hFollow⟩ := exists_follow disk false left
        rw [hFollow]
        simpa [lead, walkSteps] using hThere
    | cons name after => simpa [lead] using hMore ((name :: after).map .name) (by simp)
  · rw [lead, hError] at h
    cases h

/-- Who gets to the end has got through the middle. -/
theorem lead_of_append (h : disk.lead start (before ++ after) = .ok target) :
    ∃ place, disk.lead start before = .ok place := by
  rcases continues_resolve false maxLinks start (before.map .name) with
    ⟨place, _, hPlace, _⟩ | ⟨e, hError, hMore⟩
  · exact ⟨place, hPlace⟩
  · cases after with
    | nil => exact ⟨target, by simpa using h⟩
    | cons name after =>
        rw [lead, List.map_append, hMore _ (by simp)] at h
        cases h

/-- From a directory one gets to each of its entries that is no link, without any link being
followed. -/
theorem resolve_name {new : Bool} {links : Nat} {entries : List (τ × Entry τ)} {e : Entry τ}
    (hAt : disk.root.at? place = some (.directory entries))
    (hLookup : entries.lookup name = some e) (hLink : ¬e.IsLink) :
    resolve disk new links place [.name name] = .ok (place ++ [name]) := by
  obtain ⟨follow, hFollow⟩ := exists_follow disk new links
  rw [hFollow]
  cases e with
  | link => exact absurd trivial hLink
  | file => simp [walkSteps, hAt, hLookup]
  | directory => simp [walkSteps, hAt, hLookup]

/-- A name that a directory does not have yet is still a place for a new entry. -/
theorem resolve_new_name {links : Nat} {entries : List (τ × Entry τ)}
    (hAt : disk.root.at? place = some (.directory entries))
    (hLookup : entries.lookup name = none) :
    resolve disk true links place [.name name] = .ok (place ++ [name]) := by
  obtain ⟨follow, hFollow⟩ := exists_follow disk true links
  rw [hFollow]
  simp [walkSteps, hAt, hLookup]

/-- A name under which a directory holds a file or directory leads there. -/
theorem resolve_concat {new : Bool} {links : Nat} {here : List τ} {steps : List (Path.Component τ)}
    {entries : List (τ × Entry τ)} {e : Entry τ}
    (h : resolve disk false links here steps = .ok place)
    (hAt : disk.root.at? place = some (.directory entries))
    (hLookup : entries.lookup name = some e) (hLink : ¬e.IsLink) :
    resolve disk new links here (steps ++ [.name name]) = .ok (place ++ [name]) := by
  rcases continues_resolve new links here steps with ⟨there, left, hThere, hMore⟩ | ⟨e, hError, _⟩
  · cases hThere.symm.trans h
    rw [hMore _ (by simp)]
    exact resolve_name hAt hLookup hLink
  · cases hError.symm.trans h

/-- A name that a directory does not have yet leads there if it may be new. -/
theorem resolve_new_concat {links : Nat} {here : List τ} {steps : List (Path.Component τ)}
    {entries : List (τ × Entry τ)} (h : resolve disk false links here steps = .ok place)
    (hAt : disk.root.at? place = some (.directory entries))
    (hLookup : entries.lookup name = none) :
    resolve disk true links here (steps ++ [.name name]) = .ok (place ++ [name]) := by
  rcases continues_resolve true links here steps with ⟨there, left, hThere, hMore⟩ | ⟨e, hError, _⟩
  · cases hThere.symm.trans h
    rw [hMore _ (by simp)]
    exact resolve_new_name hAt hLookup
  · cases hError.symm.trans h

theorem lead_concat {entries : List (τ × Entry τ)} {e : Entry τ}
    (h : disk.lead start names = .ok place)
    (hAt : disk.root.at? place = some (.directory entries))
    (hLookup : entries.lookup name = some e) (hLink : ¬e.IsLink) :
    disk.lead start (names ++ [name]) = .ok (place ++ [name]) := by
  rw [lead, List.map_append]
  exact resolve_concat h hAt hLookup hLink

/-- A way that leads somewhere passes through directories, each of which has the next name. -/
theorem exists_entry_of_lead_concat (h : disk.lead start (names ++ [name]) = .ok target) :
    ∃ place entries e, disk.lead start names = .ok place ∧
      disk.root.at? place = some (.directory entries) ∧ entries.lookup name = some e := by
  obtain ⟨place, hPlace⟩ := lead_of_append h
  obtain ⟨left, hMore⟩ := lead_append hPlace
  have hStep := hMore [name]
  rw [h] at hStep
  obtain ⟨follow, hFollow⟩ := exists_follow disk false left
  rw [hFollow] at hStep
  cases hAt : disk.root.at? place with
  | none => simp [walkSteps, hAt] at hStep
  | some e =>
      cases e with
      | file => simp [walkSteps, hAt] at hStep
      | link => simp [walkSteps, hAt] at hStep
      | directory entries =>
          cases hLookup : entries.lookup name with
          | none => simp [walkSteps, hAt, hLookup] at hStep
          | some below => exact ⟨place, entries, below, hPlace, hAt, hLookup⟩

/-- Wherever names lead on, there is a directory. -/
theorem directory_of_lead_append (h : disk.lead start (before ++ after) = .ok target)
    (hAfter : after ≠ []) :
    ∃ place entries, disk.lead start before = .ok place ∧
      disk.root.at? place = some (.directory entries) := by
  obtain ⟨name, rest, rfl⟩ := List.exists_cons_of_ne_nil hAfter
  have hBefore : before ++ name :: rest = (before ++ [name]) ++ rest := by simp
  rw [hBefore] at h
  obtain ⟨next, hNext⟩ := lead_of_append h
  obtain ⟨place, entries, _, hPlace, hAt, _⟩ := exists_entry_of_lead_concat hNext
  exact ⟨place, entries, hPlace, hAt⟩

end Disk

end SourceSurvey
