import SourceSurvey.Disk.Walk
import SourceSurvey.Proofs.Disk.Way
import Mathlib.Data.List.Lex
import Mathlib.Data.List.Perm.Subperm

/-!
What a walk finds: the files at the ends of its ways, in the order of the names on the way, each of
them once. That links are followed a bounded number of times cuts no way short, since each link to
a directory leads to a place that the way has not passed through.
-/

namespace SourceSurvey.Disk

variable {τ : Type}

/-- What holds of files and links, and of a directory if it holds of all its entries, holds of
every entry. -/
theorem Entry.induction {P : Entry τ → Prop} (file : ∀ bytes modified, P (.file bytes modified))
    (link : ∀ target, P (.link target))
    (directory : ∀ entries, (∀ name e, (name, e) ∈ entries → P e) → P (.directory entries)) :
    ∀ e, P e
  | .file bytes modified => file bytes modified
  | .link target => link target
  | .directory entries => directory entries fun name e h =>
      have : sizeOf e < 1 + sizeOf entries := by
        have hPair := List.sizeOf_lt_of_mem h
        have hSize : sizeOf (name, e) = 1 + sizeOf name + sizeOf e := rfl
        omega
      Entry.induction file link directory e

/-! ### Directories are finitely many -/

mutual

/-- The places of the directories below an entry, itself included. -/
def Entry.directoryPlaces (place : List τ) : Entry τ → List (List τ)
  | .directory entries => place :: directoryPlacesAmong place entries
  | _ => []

def directoryPlacesAmong (place : List τ) : List (τ × Entry τ) → List (List τ)
  | [] => []
  | (name, e) :: rest => e.directoryPlaces (place ++ [name]) ++ directoryPlacesAmong place rest

end

/-- The places of directories among entries, entry by entry. -/
theorem directoryPlacesAmong_eq (place : List τ) (entries : List (τ × Entry τ)) :
    directoryPlacesAmong place entries =
      entries.flatMap fun entry => entry.2.directoryPlaces (place ++ [entry.1]) := by
  induction entries with
  | nil => rfl
  | cons entry rest ih => simp [directoryPlacesAmong, ih]

theorem length_directoryPlacesAmong {entries : List (τ × Entry τ)}
    (h : ∀ name e, (name, e) ∈ entries → ∀ place,
      (e.directoryPlaces place).length = e.directoryCount) (place : List τ) :
    (directoryPlacesAmong place entries).length = directoryCounts entries := by
  induction entries with
  | nil => rfl
  | cons entry rest ih =>
      obtain ⟨name, e⟩ := entry
      have hRest := ih fun name e hMem => h name e (List.mem_cons_of_mem _ hMem)
      rw [directoryPlacesAmong, directoryCounts, List.length_append, hRest,
        h name e List.mem_cons_self]

/-- Each directory of a tree is counted at one place. -/
theorem Entry.length_directoryPlaces (e : Entry τ) (place : List τ) :
    (e.directoryPlaces place).length = e.directoryCount := by
  induction e using Entry.induction generalizing place with
  | file => rfl
  | link => rfl
  | directory entries ih =>
      rw [directoryPlaces, directoryCount, List.length_cons, length_directoryPlacesAmong ih]

section

variable [DecidableEq τ]

/-- The place of each directory is among those that are counted. -/
theorem Entry.mem_directoryPlaces {e : Entry τ} {names : List τ}
    {entries : List (τ × Entry τ)} (h : e.at? names = some (.directory entries))
    (place : List τ) : place ++ names ∈ e.directoryPlaces place := by
  induction names generalizing e place with
  | nil =>
      have hSame : e = .directory entries := by simpa [at?] using h
      subst hSame
      simp [directoryPlaces]
  | cons name names ih =>
      cases e with
      | directory all =>
          simp only [at?, Option.bind_eq_some_iff] at h
          obtain ⟨below, hLookup, hAt⟩ := h
          have hBelow := ih hAt (place ++ [name])
          rw [directoryPlaces, directoryPlacesAmong_eq]
          refine List.mem_cons_of_mem _ (List.mem_flatMap.2 ⟨_, mem_of_lookup hLookup, ?_⟩)
          simpa using hBelow
      | file => simp [at?] at h
      | link => simp [at?] at h

variable [LT τ] [PathText τ] {disk : Disk τ}

/-- Different places of directories are not more than there are directories. -/
theorem length_le_directoryCount {places : List (List τ)} (hDistinct : places.Nodup)
    (h : ∀ place ∈ places, disk.IsDirectoryAt place) :
    places.length ≤ disk.root.directoryCount := by
  rw [← Entry.length_directoryPlaces disk.root []]
  have hSubset : places ⊆ disk.root.directoryPlaces [] := by
    intro place hPlace
    obtain ⟨entries, hAt⟩ := h place hPlace
    simpa using Entry.mem_directoryPlaces hAt []
  exact (List.subperm_of_subset hDistinct hSubset).length_le

end

/-! ### One level of a walk -/

variable {skip : List τ → Bool}

theorem filesAmong_eq (follow : Visit τ → List (Found τ)) (v : Visit τ)
    (entries : List (τ × Entry τ)) :
    filesAmong skip follow v entries = entries.flatMap fun entry =>
      if skip (v.names ++ [entry.1]) then []
      else filesBelow skip follow (v.child entry.1) entry.2 := by
  induction entries with
  | nil => rfl
  | cons entry rest ih =>
      rw [filesAmong, ih]
      rfl

/-- A file among entries is found below one of them that is not skipped. -/
theorem mem_filesAmong {follow : Visit τ → List (Found τ)} {v : Visit τ}
    {entries : List (τ × Entry τ)} {f : Found τ} :
    f ∈ filesAmong skip follow v entries ↔ ∃ name e, (name, e) ∈ entries ∧
      skip (v.names ++ [name]) = false ∧ f ∈ filesBelow skip follow (v.child name) e := by
  rw [filesAmong_eq, List.mem_flatMap]
  constructor
  · intro h
    obtain ⟨⟨name, e⟩, hMem, hFound⟩ := h
    cases hSkip : skip (v.names ++ [name]) with
    | true => simp [hSkip] at hFound
    | false => exact ⟨name, e, hMem, hSkip, by simpa [hSkip] using hFound⟩
  · intro h
    obtain ⟨name, e, hMem, hSkip, hFound⟩ := h
    exact ⟨(name, e), hMem, by simpa [hSkip] using hFound⟩

variable [DecidableEq τ] [LT τ] [PathText τ] {disk : Disk τ} {start : List τ}

/-- A link gives what is found where it leads, unless that is a directory on the way. -/
theorem mem_filesBehind_succ {hops : Nat} {v : Visit τ} {f : Found τ} :
    f ∈ filesBehind disk skip start (hops + 1) v ↔ ∃ target e,
      disk.lead start v.names = .ok target ∧ disk.root.at? target = some e ∧ ¬e.IsLink ∧
        (disk.IsDirectoryAt target → target ∉ v.above) ∧
        f ∈ filesBelow skip (filesBehind disk skip start hops) { v with place := target } e := by
  rw [lead, filesBehind]
  cases hLead : resolve disk false maxLinks start (v.names.map .name) with
  | error e => simp
  | ok target =>
      cases hAt : disk.root.at? target with
      | none => simp [hAt]
      | some e =>
          cases e with
          | link => simp [hAt, Entry.IsLink]
          | file => simp [hAt, Entry.IsLink, IsDirectoryAt, filesBelow]
          | directory => simp [hAt, Entry.IsLink, IsDirectoryAt]

/-! ### Nothing else is found -/

/-- A walk may find a file at the end of a way. -/
def Found.EndsWay (disk : Disk τ) (skip : List τ → Bool) (start : List τ) (f : Found τ) :
    Prop :=
  ∃ place above, Way disk skip start f.names place above ∧
    disk.root.at? place = some (.file f.bytes f.modified)

/-- Whatever is found by following links lies at the end of a way. -/
def FollowsWays (disk : Disk τ) (skip : List τ → Bool) (start : List τ)
    (follow : Visit τ → List (Found τ)) : Prop :=
  ∀ {names place : List τ} {above : List (List τ)} {entries : List (τ × Entry τ)}
    {name text : τ}, Way disk skip start names place above →
    disk.root.at? place = some (.directory entries) →
    entries.lookup name = some (.link text) → skip (names ++ [name]) = false →
    ∀ f ∈ follow ⟨names ++ [name], place ++ [name], place :: above⟩, f.EndsWay disk skip start

/-- A file that is found below an entry is at the end of a way, if those behind links are. -/
theorem endsWay_of_mem_filesBelow [Std.Irrefl (α := τ) (· < ·)] {follow : Visit τ → List (Found τ)}
    (hFollow : FollowsWays disk skip start follow) (e : Entry τ) (hLink : ¬e.IsLink) {v : Visit τ}
    (hWay : Way disk skip start v.names v.place v.above) (hAt : disk.root.at? v.place = some e)
    {f : Found τ} (hFound : f ∈ filesBelow skip follow v e) : f.EndsWay disk skip start := by
  induction e using Entry.induction generalizing v with
  | file bytes modified =>
      have hSame : f = ⟨v.names, bytes, modified⟩ := by simpa [filesBelow] using hFound
      subst hSame
      exact ⟨v.place, v.above, hWay, hAt⟩
  | link => exact absurd trivial hLink
  | directory entries ih =>
      rw [filesBelow, mem_filesAmong] at hFound
      obtain ⟨name, e, hMem, hKept, hFound⟩ := hFound
      have hSorted : KeysSorted entries := (disk.wellFormed.at? hAt).1.1
      have hLookup := Entry.lookup_of_mem hSorted hMem
      by_cases hLink : e.IsLink
      · cases e with
        | link text => exact hFollow hWay hAt hLookup hKept f (by
            simpa [filesBelow, Visit.child] using hFound)
        | file => exact absurd hLink id
        | directory => exact absurd hLink id
      · exact ih name e hMem hLink (Way.child hWay hAt hLookup hLink hKept)
          ((Entry.at?_concat hAt name).trans hLookup) hFound

/-- With any number of links left the walk behind a link keeps to ways. -/
theorem followsWays_filesBehind [Std.Irrefl (α := τ) (· < ·)] (hops : Nat) :
    FollowsWays disk skip start (filesBehind disk skip start hops) := by
  induction hops with
  | zero =>
      intro names place above entries name text _ _ _ _ f hFound
      simp [filesBehind] at hFound
  | succ hops ih =>
      intro names place above entries name text hWay hAt hLookup hKept f hFound
      obtain ⟨target, e, hLead, hTarget, hLink, hFresh, hFound⟩ := mem_filesBehind_succ.1 hFound
      exact endsWay_of_mem_filesBelow ih e hLink
        (Way.link hWay hAt hLookup hKept hLead hFresh) hTarget hFound

/-! ### Everything is found -/

/-- All that lies below where a walk has come to is found by the whole walk, if so many links may
still be followed. These links and the directories reached by links so far make up all
directories. -/
structure Covered (disk : Disk τ) (skip : List τ → Bool) (start : List τ) (v : Visit τ)
    (hops : Nat) (followed : List (List τ)) : Prop where
  distinct : followed.Nodup
  passed : ∀ q ∈ followed, q ∈ v.place :: v.above
  directories : ∀ q ∈ followed, disk.IsDirectoryAt q
  enough : disk.root.directoryCount < hops + followed.length
  found : ∀ e, disk.root.at? v.place = some e → ¬e.IsLink →
    ∀ f ∈ filesBelow skip (filesBehind disk skip start hops) v e, f ∈ disk.walk skip start

/-- At the start all directories of the disk are left for links to lead to. -/
theorem covered_start (hStart : disk.IsDirectoryAt start) :
    Covered disk skip start ⟨[], start, []⟩ (disk.root.directoryCount + 1) [] where
  distinct := List.nodup_nil
  passed := by simp
  directories := by simp
  enough := by simp
  found := by
    intro e hE _ f hFound
    obtain ⟨entries, hAt⟩ := hStart
    rw [hAt] at hE
    cases hE
    simpa [walk, hAt] using hFound

section

variable {v : Visit τ} {hops : Nat} {followed : List (List τ)}
  {entries : List (τ × Entry τ)} {name : τ} {e : Entry τ} {f : Found τ}

/-- What is found at an entry is found in the directory that has the entry. -/
theorem Covered.mem_walk (h : Covered disk skip start v hops followed)
    (hAt : disk.root.at? v.place = some (.directory entries))
    (hLookup : entries.lookup name = some e) (hKept : skip (v.names ++ [name]) = false)
    (hFound : f ∈ filesBelow skip (filesBehind disk skip start hops)
      ⟨v.names ++ [name], v.place ++ [name], v.place :: v.above⟩ e) : f ∈ disk.walk skip start := by
  apply h.found _ hAt id f
  rw [filesBelow, mem_filesAmong]
  exact ⟨name, e, Entry.mem_of_lookup hLookup, hKept, hFound⟩

/-- Going down one directory costs nothing, for no link is followed. -/
theorem Covered.child (h : Covered disk skip start v hops followed)
    (hAt : disk.root.at? v.place = some (.directory entries))
    (hKept : skip (v.names ++ [name]) = false) :
    Covered disk skip start ⟨v.names ++ [name], v.place ++ [name], v.place :: v.above⟩ hops
      followed where
  distinct := h.distinct
  passed := fun q hQ => List.mem_cons_of_mem _ (h.passed q hQ)
  directories := h.directories
  enough := h.enough
  found := by
    intro e hE _ f hFound
    rw [Entry.at?_concat hAt] at hE
    exact h.mem_walk hAt hE hKept hFound

/-- There is always a link left to follow. -/
theorem Covered.exists_succ (h : Covered disk skip start v hops followed) :
    ∃ left, hops = left + 1 := by
  have hBound := length_le_directoryCount h.distinct h.directories
  have hEnough := h.enough
  exact ⟨hops - 1, by omega⟩

/-- Where a link leads everything is found as well, with one link less to follow if that is a
directory. -/
theorem Covered.link {target : List τ} {text : τ}
    (h : Covered disk skip start v hops followed)
    (hAt : disk.root.at? v.place = some (.directory entries))
    (hLookup : entries.lookup name = some (.link text)) (hKept : skip (v.names ++ [name]) = false)
    (hLead : disk.lead start (v.names ++ [name]) = .ok target)
    (hFresh : disk.IsDirectoryAt target → target ∉ v.place :: v.above) :
    ∃ hops followed, Covered disk skip start ⟨v.names ++ [name], target, v.place :: v.above⟩ hops
      followed := by
  obtain ⟨left, hLeft⟩ := h.exists_succ
  subst hLeft
  have hBehind : ∀ e, disk.root.at? target = some e → ¬e.IsLink →
      ∀ f ∈ filesBelow skip (filesBehind disk skip start left)
        ⟨v.names ++ [name], target, v.place :: v.above⟩ e, f ∈ disk.walk skip start := by
    intro e hE hLink f hFound
    apply h.mem_walk hAt hLookup hKept
    rw [filesBelow]
    exact mem_filesBehind_succ.2 ⟨target, e, hLead, hE, hLink, hFresh, hFound⟩
  by_cases hTarget : disk.IsDirectoryAt target
  · refine ⟨left, target :: followed, ?_, ?_, ?_, ?_, hBehind⟩
    · exact List.nodup_cons.2 ⟨fun hOld => hFresh hTarget (h.passed target hOld), h.distinct⟩
    · exact List.cons_subset_cons target h.passed
    · exact List.forall_mem_cons.2 ⟨hTarget, h.directories⟩
    · have hEnough := h.enough
      rw [List.length_cons]
      omega
  · refine ⟨left + 1, followed, h.distinct, ?_, h.directories, h.enough, ?_⟩
    · intro q hQ
      exact List.mem_cons_of_mem _ (h.passed q hQ)
    · intro e hE hLink f hFound
      cases e with
      | link => exact absurd trivial hLink
      | directory entries => exact absurd ⟨entries, hE⟩ hTarget
      | file =>
          -- at a file it does not matter how many links are left
          apply hBehind _ hE hLink f
          rw [filesBelow] at hFound ⊢
          exact hFound

end

/-- A way never needs more links than the walk can follow, since none leads to a directory where it
has been. -/
theorem Way.exists_covered {names place : List τ} {above : List (List τ)}
    (h : Way disk skip start names place above) (hStart : disk.IsDirectoryAt start) :
    ∃ hops followed, Covered disk skip start ⟨names, place, above⟩ hops followed := by
  induction h with
  | start => exact ⟨_, _, covered_start hStart⟩
  | child before hAt hLookup hLink hKept ih =>
      obtain ⟨hops, followed, hCovered⟩ := ih
      exact ⟨hops, followed, hCovered.child hAt hKept⟩
  | link before hAt hLookup hKept hLead hFresh ih =>
      obtain ⟨hops, followed, hCovered⟩ := ih
      exact hCovered.link hAt hLookup hKept hLead hFresh

/-- A walk finds a file at the end of every way with a name, and nothing else. -/
theorem mem_walk_iff_endsWay [Std.Irrefl (α := τ) (· < ·)] {f : Found τ} :
    f ∈ disk.walk skip start ↔ f.names ≠ [] ∧ f.EndsWay disk skip start := by
  constructor
  · intro hFound
    rw [walk] at hFound
    cases hAt : disk.root.at? start with
    | none => simp [hAt] at hFound
    | some e =>
        cases e with
        | file => simp [hAt] at hFound
        | link => simp [hAt] at hFound
        | directory entries =>
            simp only [hAt] at hFound
            have hEnds := endsWay_of_mem_filesBelow (followsWays_filesBehind _)
              (.directory entries) id (v := ⟨[], start, []⟩) Way.start hAt hFound
            refine ⟨?_, hEnds⟩
            intro hNil
            obtain ⟨place, above, hWay, hFile⟩ := hEnds
            have hLead := hWay.lead_eq
            rw [hNil, lead_nil] at hLead
            have hPlace := Except.ok.inj hLead
            rw [← hPlace, hAt] at hFile
            cases hFile
  · intro h
    obtain ⟨hNames, place, above, hWay, hFile⟩ := h
    have hLead : disk.lead start ([] ++ f.names) = .ok place := hWay.lead_eq
    obtain ⟨there, entries, hThere, hAt⟩ := directory_of_lead_append hLead hNames
    cases hThere
    obtain ⟨hops, followed, hCovered⟩ := hWay.exists_covered ⟨entries, hAt⟩
    exact hCovered.found _ hFile id f (by simp [filesBelow])

/-- The walk finds just the files at the end of ways. -/
theorem mem_walk_iff [Std.Irrefl (α := τ) (· < ·)] {f : Found τ} :
    f ∈ disk.walk skip start ↔ f.names ≠ [] ∧
      (∃ place, disk.lead start f.names = .ok place ∧
        disk.root.at? place = some (.file f.bytes f.modified)) ∧
      Kept skip f.names ∧ disk.Straight start f.names := by
  rw [mem_walk_iff_endsWay]
  apply and_congr_right
  intro _
  constructor
  · intro h
    obtain ⟨place, above, hWay, hFile⟩ := h
    exact ⟨⟨place, hWay.lead_eq, hFile⟩, hWay.kept, hWay.straight⟩
  · intro h
    obtain ⟨⟨place, hLead, hFile⟩, hKept, hStraight⟩ := h
    obtain ⟨above, hWay⟩ := exists_way hLead hKept hStraight
    exact ⟨place, above, hWay, hFile⟩

/-! ### The order of what is found -/

/-- What is found from a visit has names that go on from those of the visit, in strict order. -/
def Ordered (v : Visit τ) (files : List (Found τ)) : Prop :=
  (∀ f ∈ files, v.names <+: f.names) ∧ files.Pairwise fun f g => f.names < g.names

omit [DecidableEq τ] [PathText τ] in
/-- Names that first differ at one name are in the order of that name. -/
theorem lt_of_concat_prefix {names left right : List τ} {name other : τ}
    (h : name < other) (hLeft : names ++ [name] <+: left) (hRight : names ++ [other] <+: right) :
    left < right := by
  obtain ⟨rest, hLeft⟩ := hLeft
  obtain ⟨rest', hRight⟩ := hRight
  rw [← hLeft, ← hRight, List.append_assoc, List.append_assoc]
  exact List.append_left_lt (List.cons_lt_cons_iff.2 (Or.inl h))

omit [DecidableEq τ] in
/-- What is found below an entry is in order, if this holds behind links. -/
theorem Ordered.filesBelow {follow : Visit τ → List (Found τ)} (hFollow : ∀ v, Ordered v (follow v))
    (e : Entry τ) (hFormed : e.WellFormed) (v : Visit τ) :
    Ordered v (Disk.filesBelow skip follow v e) := by
  induction e using Entry.induction generalizing v with
  | file => simp [Ordered, Disk.filesBelow]
  | link => simpa [Disk.filesBelow] using hFollow v
  | directory entries ih =>
      have hEntry : ∀ entry ∈ entries, Ordered (v.child entry.1)
          (if skip (v.names ++ [entry.1]) then [] else
            Disk.filesBelow skip follow { v.child entry.1 with above := v.place :: v.above }
              entry.2) := by
        intro ⟨name, e⟩ hMem
        split
        · exact ⟨by simp, List.Pairwise.nil⟩
        · exact ih name e hMem (allWellFormed_iff.1 hFormed.2 _ hMem).2 _
      rw [Disk.filesBelow, filesAmong_eq]
      constructor
      · intro f hFound
        obtain ⟨entry, hMem, hFound⟩ := List.mem_flatMap.1 hFound
        exact (List.prefix_append v.names [entry.1]).trans ((hEntry entry hMem).1 f hFound)
      · rw [List.pairwise_flatMap]
        refine ⟨fun entry hMem => (hEntry entry hMem).2, ?_⟩
        -- files of different entries differ first at the names of the entries
        apply hFormed.1.imp_of_mem
        intro entry other hMem hOther hLt f hF g hG
        exact lt_of_concat_prefix hLt ((hEntry entry hMem).1 f hF) ((hEntry other hOther).1 g hG)

theorem ordered_filesBehind (hops : Nat) (v : Visit τ) :
    Ordered v (filesBehind disk skip start hops v) := by
  induction hops generalizing v with
  | zero => simp [Ordered, filesBehind]
  | succ hops ih =>
      rw [filesBehind]
      split
      · simp [Ordered]
      · rename_i place _
        split
        · simp [Ordered]
        · rename_i entries hAt
          split
          · simp [Ordered]
          · exact Ordered.filesBelow ih _ (disk.wellFormed.at? hAt).1 { v with place }
        · simp [Ordered]

/-- What a walk finds is in strict order of the names. -/
theorem walk_pairwise (disk : Disk τ) (skip : List τ → Bool) (start : List τ) :
    (disk.walk skip start).Pairwise fun f g => f.names < g.names := by
  rw [walk]
  split
  · rename_i entries hAt
    exact (Ordered.filesBelow (ordered_filesBehind _) _ (disk.wellFormed.at? hAt).1 _).2
  · exact List.Pairwise.nil

omit [DecidableEq τ] [PathText τ] in
/-- Files in strict order are settled by which they are. -/
theorem eq_of_mem_iff [Std.Asymm (α := τ) (· < ·)] {files files' : List (Found τ)}
    (h : files.Pairwise fun f g => f.names < g.names)
    (h' : files'.Pairwise fun f g => f.names < g.names) (hMem : ∀ f, f ∈ files ↔ f ∈ files') :
    files = files' := by
  have hNodup {files : List (Found τ)} (h : files.Pairwise fun f g => f.names < g.names) :
      files.Nodup := by
    apply h.imp
    intro f g hLt hSame
    rw [hSame] at hLt
    exact List.lt_asymm hLt hLt
  have hPerm := (List.perm_ext_iff_of_nodup (hNodup h) (hNodup h')).2 hMem
  exact hPerm.eq_of_pairwise (fun _ _ _ _ hLt hGt => absurd hGt (List.lt_asymm hLt)) h h'

/-- Files are found under proper names. -/
theorem isName_of_mem_walk [Std.Irrefl (α := τ) (· < ·)] {f : Found τ}
    (h : f ∈ disk.walk skip start) : ∀ name ∈ f.names, IsName name := by
  obtain ⟨_, place, above, hWay, _⟩ := mem_walk_iff_endsWay.1 h
  exact hWay.isName

end SourceSurvey.Disk
