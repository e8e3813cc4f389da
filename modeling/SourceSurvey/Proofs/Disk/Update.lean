import SourceSurvey.Disk.Update
import SourceSurvey.Proofs.Dictionary
import SourceSurvey.Proofs.Disk.Way

/-!
What a change at one place leaves as it is. Putting or removing a file disturbs nothing elsewhere,
except that directories on the way to it may be made; where directories and links stay, a path that
has led to a directory leads there still.
-/

namespace SourceSurvey

namespace Disk

namespace Entry

def IsDirectory : Entry → Prop
  | .directory _ => True
  | _ => False

/-- Nothing lies below the entry. -/
def IsBare (e : Entry) : Prop :=
  ∀ name rest, e.at? (name :: rest) = none

theorem isBare_file (bytes : List UInt8) (modified : Timestamp) : (file bytes modified).IsBare := by
  intro name rest
  simp [at?]

theorem isBare_empty : (directory []).IsBare := by
  intro name rest
  simp [at?]

end Entry

/-- What is at a place before and after a change elsewhere: the same, or else a directory, where
there was a directory or nothing. -/
inductive Undisturbed : Option Entry → Option Entry → Prop
  | same (found : Option Entry) : Undisturbed found found
  | directory (entries : List (String × Entry)) {before : Option Entry}
      (hBefore : ∀ e, before = some e → e.IsDirectory) :
      Undisturbed before (some (.directory entries))

/-- Two changes that leave an entry undisturbed are one such change. -/
theorem Undisturbed.trans {before between after : Option Entry} (h : Undisturbed before between)
    (hNext : Undisturbed between after) : Undisturbed before after := by
  cases hNext with
  | same => exact h
  | directory entries hBetween =>
      cases h with
      | same => exact .directory entries hBetween
      | directory _ hBefore => exact .directory entries hBefore

/-- A directory that was not there at all counts as an empty one. -/
theorem Undisturbed.of_empty {entries : List (String × Entry)} {after : Option Entry}
    (h : Undisturbed (some (.directory entries)) after) : Undisturbed none after := by
  cases h with
  | same => exact .directory entries (by simp)
  | directory entries => exact .directory entries (by simp)

namespace Entry

variable {new e : Entry} {names q : List String} {name : String}

/-- To take out one name has no effect on the others. -/
theorem lookup_filter_ne (entries : List (String × Entry)) (name other : String) :
    (entries.filter (·.1 ≠ name)).lookup other =
      if other = name then none else entries.lookup other := by
  induction entries with
  | nil => simp
  | cons entry rest ih =>
      obtain ⟨key, value⟩ := entry
      by_cases hKey : key = name
      · subst hKey
        rw [List.filter_cons_of_neg (by simp), ih, lookup_cons_eq_ite]
        by_cases hOther : other = key <;> simp [hOther]
      · rw [List.filter_cons_of_pos (by simp [hKey]), lookup_cons_eq_ite, ih, lookup_cons_eq_ite]
        by_cases hOther : other = key
        · subst hOther
          simp [hKey]
        · simp [hOther]

/-- To put an entry at some names disturbs nothing at others: what is replaced has nothing below
it. -/
theorem undisturbed_put (hNew : new.IsBare) (hOld : ∀ old, e.at? names = some old → old.IsBare)
    (h : q ≠ names) : Undisturbed (e.at? q) ((put new names e).at? q) := by
  induction names generalizing e q with
  | nil =>
      obtain ⟨name, rest, rfl⟩ := List.exists_cons_of_ne_nil h
      rw [put, hNew, hOld e rfl]
      exact .same none
  | cons name names ih =>
      cases e with
      | file => exact .same _
      | link => exact .same _
      | directory entries =>
          by_cases hName : IsName name
          · cases q with
            | nil =>
                simp only [put, if_pos hName, at?]
                exact .directory _ (by simp [IsDirectory])
            | cons other rest =>
                simp only [put, if_pos hName, at?, lookup_insertEntry]
                by_cases hOther : other = name
                · subst hOther
                  rw [if_pos rfl, Option.bind_some]
                  have hRest : rest ≠ names := fun hSame => h (by rw [hSame])
                  cases hLookup : entries.lookup other with
                  | some below =>
                      apply ih _ hRest
                      intro old hAt
                      exact hOld old (by simpa [at?, hLookup] using hAt)
                  | none =>
                      -- a directory made on the way counts as an empty one that was there before
                      have hEmpty : Undisturbed ((directory []).at? rest)
                          ((put new names (directory [])).at? rest) := by
                        apply ih _ hRest
                        intro old hAt
                        cases names with
                        | nil =>
                            cases hAt
                            exact isBare_empty
                        | cons => simp [at?] at hAt
                      cases rest with
                      | nil => exact hEmpty.of_empty
                      | cons => simpa [at?] using hEmpty
                · rw [if_neg hOther]
                  exact .same _
          · simp only [put, if_neg hName]
            exact .same _

/-- To remove an entry that has nothing below it disturbs no other. -/
theorem undisturbed_remove (hOld : ∀ old, e.at? names = some old → old.IsBare) (h : q ≠ names) :
    Undisturbed (e.at? q) ((remove names e).at? q) := by
  fun_induction remove names e generalizing q with
  | case1 => exact .same _
  | case2 name entries =>
      cases q with
      | nil => exact .directory _ (by simp [at?, IsDirectory])
      | cons other rest =>
          by_cases hOther : other = name
          · subst hOther
            obtain ⟨next, rest, rfl⟩ := List.exists_cons_of_ne_nil
              (show rest ≠ [] from fun hNil => h (by rw [hNil]))
            have hGone : (directory entries).at? (other :: next :: rest) = none := by
              cases hLookup : entries.lookup other with
              | none => simp [at?, hLookup]
              | some old =>
                  simp only [at?, hLookup, Option.bind_some]
                  exact hOld old (by simp [at?, hLookup]) next rest
            rw [hGone, at?, lookup_filter_ne, if_pos rfl]
            exact .same none
          · simp only [at?, lookup_filter_ne, if_neg hOther]
            exact .same _
  | case3 name names entries _ below hLookup hName ih =>
      cases q with
      | nil => exact .directory _ (by simp [at?, IsDirectory])
      | cons other rest =>
          simp only [at?, lookup_insertEntry]
          by_cases hOther : other = name
          · subst hOther
            rw [if_pos rfl, hLookup]
            refine ih (fun old hAt => hOld old (by simpa [at?, hLookup] using hAt)) ?_
            exact fun hSame => h (by rw [hSame])
          · rw [if_neg hOther]
            exact .same _
  | case4 => exact .same _
  | case5 => exact .same _
  | case6 => exact .same _

/-- Where something is put, it is found, unless nothing can be put there. -/
theorem at?_put_self (new e : Entry) (names : List String) :
    (put new names e).at? names = some new ∨ (put new names e).at? names = e.at? names := by
  induction names generalizing e with
  | nil => exact .inl rfl
  | cons name names ih =>
      cases e with
      | file => exact .inr rfl
      | link => exact .inr rfl
      | directory entries =>
          by_cases hName : IsName name
          · have hBelow : (put new (name :: names) (directory entries)).at? (name :: names) =
                (put new names ((entries.lookup name).getD (directory []))).at? names := by
              simp [put, hName, at?, lookup_insertEntry]
            rw [hBelow]
            cases hLookup : entries.lookup name with
            | some below => simpa [at?, hLookup] using ih below
            | none =>
                cases names with
                | nil => exact .inl rfl
                | cons next names => simpa [at?, hLookup] using ih (directory [])
          · have hSame : put new (name :: names) (directory entries) = directory entries := by
              simp only [put, if_neg hName]
            exact .inr (by rw [hSame])

/-- A new entry of a directory is found there. -/
theorem at?_put_concat {place : List String} {entries : List (String × Entry)} (hName : IsName name)
    (hFormed : e.WellFormed) (hAt : e.at? place = some (directory entries)) :
    (put new (place ++ [name]) e).at? (place ++ [name]) = some new := by
  induction place generalizing e with
  | nil =>
      cases hAt
      simp [put, hName, at?, lookup_insertEntry]
  | cons next place ih =>
      cases e with
      | file => simp [at?] at hAt
      | link => simp [at?] at hAt
      | directory all =>
          have hNext := (hFormed.at? hAt).2 next List.mem_cons_self
          simp only [at?, Option.bind_eq_some_iff] at hAt
          obtain ⟨below, hLookup, hAt⟩ := hAt
          have hBelow := (allWellFormed_iff.1 hFormed.2 _ (mem_of_lookup hLookup)).2
          simpa [put, hNext, at?, lookup_insertEntry, hLookup] using ih hBelow hAt

/-- What is removed is gone, unless it could not be removed at all. -/
theorem at?_remove_self (e : Entry) (names : List String) (h : names ≠ []) :
    (remove names e).at? names = none ∨ (remove names e).at? names = e.at? names := by
  fun_induction remove names e with
  | case1 => exact absurd rfl h
  | case2 name entries =>
      left
      simp only [at?, lookup_filter_ne, if_true, Option.bind_none]
  | case3 name names entries hNames below hLookup hName ih =>
      simpa [at?, lookup_insertEntry, hLookup] using ih hNames
  | case4 => exact .inr rfl
  | case5 => exact .inr rfl
  | case6 => exact .inr rfl

end Entry

variable {disk disk' disk'' : Disk} {places places' : List (List String)}
  {place names q : List String} {new : Entry}

/-- An entry at the names of another keeps the root a directory; at no names it would replace the
root. -/
theorem Entry.IsDirectory.put {e : Entry} (h : e.IsDirectory) (hNames : names ≠ []) :
    (Entry.put new names e).IsDirectory := by
  fun_cases Entry.put new names e with
  | case1 => exact absurd rfl hNames
  | case2 => trivial
  | case3 => trivial
  | case4 => exact h

theorem Entry.IsDirectory.remove {e : Entry} (h : e.IsDirectory) :
    (Entry.remove names e).IsDirectory := by
  fun_cases Entry.remove names e with
  | case1 => exact h
  | case2 => trivial
  | case3 => trivial
  | case4 => trivial
  | case5 => trivial
  | case6 => exact h

theorem root_withRoot {e : Entry} (hFormed : e.WellFormed) (h : e.IsDirectory) :
    (disk.withRoot e hFormed).root = e := by
  cases e with
  | directory => rfl
  | file => exact absurd h id
  | link => exact absurd h id

theorem root_put (hNames : names ≠ []) (hNew : new.WellFormed) :
    (disk.put names new hNew).root = Entry.put new names disk.root :=
  root_withRoot _ (Entry.IsDirectory.put trivial hNames)

theorem root_remove : (disk.remove names).root = Entry.remove names disk.root :=
  root_withRoot _ (Entry.IsDirectory.remove trivial)

theorem home_withRoot (e : Entry) (h : e.WellFormed) : (disk.withRoot e h).home = disk.home := by
  cases e <;> rfl

/-- One disk has become another by changes at some places, which held nothing but files. -/
structure Changed (places : List (List String)) (disk disk' : Disk) : Prop where
  home : disk'.home = disk.home
  elsewhere : ∀ q, q ∉ places → Undisturbed (disk.root.at? q) (disk'.root.at? q)
  replaced : ∀ q ∈ places, ∀ e, disk.root.at? q = some e → ∃ bytes modified, e = .file bytes modified

theorem Changed.refl (disk : Disk) : Changed [] disk disk :=
  ⟨rfl, fun _ _ => .same _, by simp⟩

/-- Changes add up, and so do the places where they may have been made. -/
theorem Changed.trans (h : Changed places disk disk') (hNext : Changed places' disk' disk'') :
    Changed (places ++ places') disk disk'' := by
  refine ⟨hNext.home.trans h.home, ?_, ?_⟩
  · intro q hPlaces
    rw [List.mem_append, not_or] at hPlaces
    exact (h.elsewhere q hPlaces.1).trans (hNext.elsewhere q hPlaces.2)
  · intro q hPlaces e hAt
    by_cases hFirst : q ∈ places
    · exact h.replaced q hFirst e hAt
    · have hSecond := (List.mem_append.1 hPlaces).resolve_left hFirst
      have hKept := h.elsewhere q hFirst
      rw [hAt] at hKept
      cases hBetween : disk'.root.at? q with
      | none => 
          rw [hBetween] at hKept
          cases hKept
      | some between =>
          obtain ⟨bytes, modified, rfl⟩ := hNext.replaced q hSecond between hBetween
          rw [hBetween] at hKept
          cases hKept
          exact ⟨bytes, modified, rfl⟩

/-- At all other places there are the same files and links. Directories are left out, as they have
changed when something in them has. -/
theorem Changed.at?_eq_some_iff (h : Changed places disk disk') (hPlaces : q ∉ places) {e : Entry}
    (hLeaf : ¬e.IsDirectory) : disk'.root.at? q = some e ↔ disk.root.at? q = some e := by
  have hKept := h.elsewhere q hPlaces
  generalize disk.root.at? q = before at hKept
  generalize disk'.root.at? q = after at hKept
  cases hKept with
  | same => rfl
  | directory entries hBefore =>
      constructor
      · intro hAt
        cases hAt
        exact absurd trivial hLeaf
      · intro hAt
        exact absurd (hBefore e hAt) hLeaf

/-- A directory stays one wherever files have changed. -/
theorem Changed.isDirectoryAt (h : Changed places disk disk') (hAt : disk.IsDirectoryAt q) :
    disk'.IsDirectoryAt q := by
  obtain ⟨entries, hAt⟩ := hAt
  have hPlaces : q ∉ places := by
    intro hMem
    obtain ⟨_, _, hFile⟩ := h.replaced q hMem _ hAt
    cases hFile
  have hKept := h.elsewhere q hPlaces
  rw [hAt] at hKept
  generalize hAfter : disk'.root.at? q = after at hKept
  cases hKept with
  | same => exact ⟨entries, hAfter⟩
  | directory others => exact ⟨others, hAfter⟩

theorem Changed.link (h : Changed places disk disk') {target : String}
    (hAt : disk.root.at? q = some (.link target)) : disk'.root.at? q = some (.link target) := by
  have hPlaces : q ∉ places := by
    intro hMem
    obtain ⟨_, _, hFile⟩ := h.replaced q hMem _ hAt
    cases hFile
  exact (h.at?_eq_some_iff hPlaces id).2 hAt

/-- Steps that end in a directory have begun in one. -/
theorem isDirectoryAt_of_walkSteps {new : Bool}
    {follow : List String → List Path.Component → Except Failure (List String)}
    {here there : List String} {steps : List Path.Component}
    (h : walkSteps disk new follow here steps = .ok there) (hAt : disk.IsDirectoryAt there) :
    disk.IsDirectoryAt here := by
  cases steps with
  | nil =>
      cases h
      exact hAt
  | cons step rest =>
      rw [walkSteps] at h
      split at h
      · rename_i entries hHere
        exact ⟨entries, hHere⟩
      · cases h

/-- A walk that ends in a directory takes the same way after a change of files. It is enough that
this holds behind each link. -/
theorem Changed.walkSteps_eq (h : Changed places disk disk')
    {follow follow' : List String → List Path.Component → Except Failure (List String)}
    {there : List String} (hAt : disk.IsDirectoryAt there)
    (hFollow : ∀ here steps, follow here steps = .ok there → follow' here steps = .ok there)
    {here : List String} {steps : List Path.Component}
    (hWalk : walkSteps disk false follow here steps = .ok there) :
    walkSteps disk' false follow' here steps = .ok there := by
  -- since the walk ends in a directory, every place on the way is one, and stays one
  induction steps generalizing here with
  | nil => exact hWalk
  | cons step rest ih =>
      obtain ⟨entries, hHere⟩ := isDirectoryAt_of_walkSteps hWalk hAt
      obtain ⟨entries', hHere'⟩ := h.isDirectoryAt ⟨entries, hHere⟩
      cases step with
      | root =>
          simp only [walkSteps, hHere, hHere'] at hWalk ⊢
          exact ih hWalk
      | current =>
          simp only [walkSteps, hHere, hHere'] at hWalk ⊢
          exact ih hWalk
      | parent =>
          simp only [walkSteps, hHere, hHere'] at hWalk ⊢
          exact ih hWalk
      | name name =>
          cases hLookup : entries.lookup name with
          | none => simp [walkSteps, hHere, hLookup] at hWalk
          | some below =>
              have hBelow := hLookup
              rw [← Entry.at?_concat hHere] at hBelow
              by_cases hLink : below.IsLink
              · cases below with
                | file => exact absurd hLink id
                | directory => exact absurd hLink id
                | link target =>
                    have hBelow' := h.link hBelow
                    rw [Entry.at?_concat hHere'] at hBelow'
                    simp only [walkSteps, hHere, hHere', hLookup, hBelow'] at hWalk ⊢
                    exact hFollow _ _ hWalk
              · have hNext : walkSteps disk false follow (here ++ [name]) rest = .ok there := by
                  cases below with
                  | link => exact absurd trivial hLink
                  | file => simpa [walkSteps, hHere, hLookup] using hWalk
                  | directory => simpa [walkSteps, hHere, hLookup] using hWalk
                obtain ⟨others, hOthers⟩ := h.isDirectoryAt (isDirectoryAt_of_walkSteps hNext hAt)
                rw [Entry.at?_concat hHere'] at hOthers
                simp only [walkSteps, hHere', hOthers]
                exact ih hNext

/-- A path that has led to a directory leads there still. -/
theorem Changed.resolve_eq (h : Changed places disk disk') {links : Nat} {here there : List String}
    {steps : List Path.Component} (hResolve : resolve disk false links here steps = .ok there)
    (hAt : disk.IsDirectoryAt there) : resolve disk' false links here steps = .ok there := by
  induction links generalizing here steps with
  | zero => exact h.walkSteps_eq hAt (fun _ _ hFails => by cases hFails) hResolve
  | succ links ih => exact h.walkSteps_eq hAt (fun _ _ hNext => ih hNext) hResolve

/-! ### Putting and removing -/

/-- A change at one place that held nothing but a file. Below a file there is nothing, so what the
change leaves undisturbed elsewhere may rest on that. -/
theorem changed_of_bare
    (hOld : ∀ e, disk.root.at? names = some e → ∃ bytes modified, e = .file bytes modified)
    (hHome : disk'.home = disk.home)
    (hElsewhere : (∀ e, disk.root.at? names = some e → e.IsBare) →
      ∀ q, q ≠ names → Undisturbed (disk.root.at? q) (disk'.root.at? q)) :
    Changed [names] disk disk' := by
  refine ⟨hHome, ?_, List.forall_mem_singleton.2 hOld⟩
  intro q hPlaces
  refine hElsewhere (fun e hAt => ?_) q (by simpa using hPlaces)
  obtain ⟨bytes, modified, rfl⟩ := hOld e hAt
  exact Entry.isBare_file bytes modified

/-- To write a file where there was none or another file changes that place alone. -/
theorem changed_put (hNames : names ≠ []) (hNew : new.WellFormed) (hBare : new.IsBare)
    (hOld : ∀ e, disk.root.at? names = some e → ∃ bytes modified, e = .file bytes modified) :
    Changed [names] disk (disk.put names new hNew) := by
  refine changed_of_bare hOld (home_withRoot _ _) fun hGone q hOther => ?_
  rw [root_put hNames]
  exact Entry.undisturbed_put hBare hGone hOther

/-- To remove a file changes that place alone. -/
theorem changed_remove
    (hOld : ∀ e, disk.root.at? names = some e → ∃ bytes modified, e = .file bytes modified) :
    Changed [names] disk (disk.remove names) := by
  refine changed_of_bare hOld (home_withRoot _ _) fun hGone q hOther => ?_
  rw [root_remove]
  exact Entry.undisturbed_remove hGone hOther

theorem at?_put_concat {name : String} {entries : List (String × Entry)} (hName : IsName name)
    (hAt : disk.root.at? place = some (.directory entries)) (hNew : new.WellFormed) :
    (disk.put (place ++ [name]) new hNew).root.at? (place ++ [name]) = some new := by
  rw [root_put (by simp)]
  exact Entry.at?_put_concat hName disk.wellFormed hAt

/-- A directory made where nothing was changes no file. -/
theorem changed_put_empty (hNames : names ≠ []) (hOld : disk.root.at? names = none) :
    Changed [] disk (disk.put names (.directory []) Entry.wellFormed_empty) := by
  have hPut := @changed_put disk _ _ hNames Entry.wellFormed_empty Entry.isBare_empty
    (by simp [hOld])
  refine ⟨hPut.home, ?_, by simp⟩
  intro q _
  by_cases hSame : q = names
  · subst hSame
    rw [root_put hNames, hOld]
    rcases Entry.at?_put_self (.directory []) disk.root q with hNew | hStill
    · rw [hNew]
      exact .directory [] (by simp)
    · rw [hStill, hOld]
      exact .same none
  · exact hPut.elsewhere q (by simpa using hSame)

end Disk

end SourceSurvey
