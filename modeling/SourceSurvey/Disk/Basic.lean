import SourceSurvey.Dictionary
import SourceSurvey.Path.Text
import SourceSurvey.Timestamp

/-!
Trees of directories, files and links. The entries of a directory are sorted by name, and putting
an entry into a tree keeps them so. Names may be texts or any bytes, as file systems allow.
-/

namespace SourceSurvey

namespace Disk

inductive Entry (τ : Type := String) where
  | file (bytes : List UInt8) (modified : Timestamp)
  | link (target : τ)
  | directory (entries : List (τ × Entry τ))

section

variable {τ : Type}

section

variable [PathText τ]

open PathText (ofText)

/-- What an entry may be called: a piece of a path that does not stand for a directory on the way. -/
def IsName (name : τ) : Prop :=
  name ≠ ofText "" ∧ name ≠ ofText "." ∧ name ≠ ofText ".." ∧ PathText.split '/' name = [name]

instance [DecidableEq τ] (name : τ) : Decidable (IsName name) :=
  inferInstanceAs (Decidable (_ ∧ _))

variable [LT τ]

mutual

/-- The entries of every directory are sorted by name and have names of their own. -/
def Entry.WellFormed : Entry τ → Prop
  | .directory entries => KeysSorted entries ∧ AllWellFormed entries
  | _ => True

def AllWellFormed : List (τ × Entry τ) → Prop
  | [] => True
  | (name, e) :: rest => IsName name ∧ e.WellFormed ∧ AllWellFormed rest

end

theorem allWellFormed_iff {entries : List (τ × Entry τ)} :
    AllWellFormed entries ↔ ∀ e ∈ entries, IsName e.1 ∧ e.2.WellFormed := by
  induction entries with
  | nil => simp [AllWellFormed]
  | cons e rest ih => simp [AllWellFormed, ih, and_assoc]

end

variable [DecidableEq τ]

/-- What lies below an entry at the end of some names; links are not followed. -/
def Entry.at? : Entry τ → List τ → Option (Entry τ)
  | e, [] => some e
  | .directory entries, name :: names => (entries.lookup name).bind (·.at? names)
  | _, _ :: _ => none

theorem Entry.mem_of_lookup {entries : List (τ × Entry τ)} {name : τ} {e : Entry τ}
    (h : entries.lookup name = some e) : (name, e) ∈ entries := by
  induction entries with
  | nil => simp at h
  | cons entry rest ih =>
    obtain ⟨n, f⟩ := entry
    rw [List.lookup_cons] at h
    split at h
    · rename_i heq
      simp_all
    · exact .tail _ (ih h)

end

namespace Entry

/-- Put an entry at the end of some names, where directories are made for those that are missing.
Nothing can be put below a file or link. -/
def put (new : Entry) : List String → Entry → Entry
  | [], _ => new
  | name :: names, .directory entries =>
    if IsName name then
      let below := (entries.lookup name).getD (.directory [])
      .directory (insertEntry name (put new names below) entries)
    else .directory entries
  | _ :: _, e => e

/-- Take away what lies at the end of some names. -/
def remove : List String → Entry → Entry
  | [], e => e
  | [name], .directory entries => .directory (entries.filter (·.1 ≠ name))
  | name :: names, .directory entries =>
    match entries.lookup name with
    | some below =>
      if IsName name then .directory (insertEntry name (remove names below) entries)
      else .directory entries
    | none => .directory entries
  | _, e => e

theorem wellFormed_empty : (directory [] : Entry).WellFormed := ⟨.nil, trivial⟩

theorem WellFormed.below {entries : List (String × Entry)} (h : (directory entries).WellFormed)
    (name : String) : ((entries.lookup name).getD (.directory [])).WellFormed := by
  cases hl : entries.lookup name with
  | none => exact wellFormed_empty
  | some e => exact (allWellFormed_iff.1 h.2 _ (mem_of_lookup hl)).2

theorem WellFormed.insert {entries : List (String × Entry)} (h : (directory entries).WellFormed)
    {name : String} (hname : IsName name) {e : Entry} (he : e.WellFormed) :
    (directory (insertEntry name e entries)).WellFormed := by
  refine ⟨keysSorted_insertEntry h.1, allWellFormed_iff.2 fun f hf => ?_⟩
  rcases mem_insertEntry hf with rfl | hf
  · exact ⟨hname, he⟩
  · exact allWellFormed_iff.1 h.2 f hf

theorem WellFormed.put {new : Entry} (hnew : new.WellFormed) (names : List String) {e : Entry}
    (h : e.WellFormed) : (Entry.put new names e).WellFormed := by
  induction names generalizing e with
  | nil => simpa [Entry.put] using hnew
  | cons name names ih =>
    cases e with
    | directory entries =>
      simp only [Entry.put]
      split
      · rename_i hname
        exact h.insert hname (ih (h.below name))
      · exact h
    | file => simp [Entry.put, WellFormed]
    | link => simp [Entry.put, WellFormed]

theorem WellFormed.remove (names : List String) {e : Entry} (h : e.WellFormed) :
    (Entry.remove names e).WellFormed := by
  fun_induction Entry.remove names e with
  | case1 => exact h
  | case2 name entries =>
    refine ⟨h.1.sublist List.filter_sublist, allWellFormed_iff.2 fun f hf => ?_⟩
    exact allWellFormed_iff.1 h.2 f (List.mem_filter.1 hf).1
  | case3 name names entries _ below hl hname ih =>
    exact h.insert hname (ih (allWellFormed_iff.1 h.2 _ (mem_of_lookup hl)).2)
  | case4 => exact h
  | case5 => exact h
  | case6 => exact h

end Entry

end Disk

/-- A file system: the tree below its root, which is a directory. -/
structure Disk (τ : Type := String) [LT τ] [PathText τ] where
  entries : List (τ × Disk.Entry τ)
  wellFormed : (Disk.Entry.directory entries).WellFormed
  /-- The names that lead to the place where relative paths begin. -/
  home : List τ := []

namespace Disk

def root {τ : Type} [LT τ] [PathText τ] (disk : Disk τ) : Entry τ := .directory disk.entries

def empty : Disk := { entries := [], wellFormed := Entry.wellFormed_empty }

instance : Inhabited Disk := ⟨empty⟩

/-- The file system with another tree, if that is a directory. -/
def withRoot (disk : Disk) (e : Entry) (h : e.WellFormed) : Disk :=
  match e, h with
  | .directory entries, h => { disk with entries := entries, wellFormed := h }
  | _, _ => disk

/-- Put a file or link, or an empty directory, at the end of some names. -/
def put (disk : Disk) (names : List String) (new : Entry) (h : new.WellFormed) : Disk :=
  disk.withRoot _ (h.put names disk.wellFormed)

def remove (disk : Disk) (names : List String) : Disk :=
  disk.withRoot _ (Entry.WellFormed.remove names disk.wellFormed)

end Disk

end SourceSurvey
