import Mathlib.Data.List.Forall2
import SourceSurvey.Proofs.Json.Decode

/-!
Records are read field by field. A decoder that is put together in the order in which the members
of an object are written reads the object back, whatever the order in which it asks for them.
-/

namespace SourceSurvey.Json

open RecordDecoder (checkMembers)

/-- How one field is written as a member and read from it, or from nothing. -/
structure FieldForm {α : Type} (name : String) (write : α → Json) (field : RecordDecoder α)
    (Fits : α → Prop) : Prop where
  fields : ∃ f, field.fields = [f] ∧ f.name = name ∧ ∀ {a}, Fits a → f.check (write a) = .ok ()
  readable : ∀ {a}, Fits a → (write a).Readable
  build : ∀ {a get}, Fits a → get name = some (write a) → field.build get = .ok a
  fits : ∀ {get a}, field.build get = .ok a → Fits a

namespace FieldForm

variable {α : Type} {write : α → Json} {read : Decoder α} {Fits : α → Prop}

theorem check_eq_ok (h : Faithful write read Fits) {a : α} (hFits : Fits a) :
    (read (write a)).map (fun _ => ()) = .ok () := by
  rw [h.read_write hFits]
  rfl

/-- A field that must be there. -/
theorem field (name : String) (h : Faithful write read Fits) :
    FieldForm name write (.field name read) Fits where
  fields := ⟨_, rfl, rfl, check_eq_ok h⟩
  readable := h.readable
  build := by
    intro a get hFits hGet
    simp only [RecordDecoder.field, hGet, h.read_write hFits]
  fits := by
    intro get a hBuild
    simp only [RecordDecoder.field] at hBuild
    split at hBuild
    · exact h.fits hBuild
    · cases hBuild

/-- A field that has a default, which is written like any other value and so must have a written
form. -/
theorem fieldOr (name : String) (h : Faithful write read Fits) {default : α}
    (hDefault : Fits default) : FieldForm name write (.fieldOr name read default) Fits where
  fields := ⟨_, rfl, rfl, check_eq_ok h⟩
  readable := h.readable
  build := by
    intro a get hFits hGet
    simp only [RecordDecoder.fieldOr, hGet, h.read_write hFits]
  fits := by
    intro get a hBuild
    simp only [RecordDecoder.fieldOr] at hBuild
    split at hBuild
    · exact h.fits hBuild
    · cases hBuild
      exact hDefault

/-- A field that may have no value, and is written as null then. -/
theorem optionalField (name : String) (h : Faithful write read Fits)
    (hNull : ∀ a, write a ≠ .null) :
    FieldForm name (fun o => (o.map write).getD .null) (.optionalField name read)
      fun o => ∀ a ∈ o, Fits a where
  fields := ⟨_, rfl, rfl, check_eq_ok (h.option hNull)⟩
  readable := (h.option hNull).readable
  build := by
    intro o get hFits hGet
    simp only [RecordDecoder.optionalField, hGet]
    exact (h.option hNull).read_write hFits
  fits := by
    intro get o hBuild
    simp only [RecordDecoder.optionalField] at hBuild
    split at hBuild
    · exact (h.option hNull).fits hBuild
    · cases hBuild
      intro a ha
      cases ha

end FieldForm

/-- The first fields of a record of type `ρ`: their names, the members they are written as, and what
the decoder has put together when it has read them. Whatever `Closed` says of a predicate is enough
for it to hold of all that the decoder builds. -/
structure RecordForm {ρ β : Type} (Fits : ρ → Prop) (names : List String)
    (members : ρ → List (String × Json)) (decoder : RecordDecoder β) (built : ρ → β)
    (Closed : (β → Prop) → Prop) : Prop where
  fields_name : decoder.fields.map (·.name) = names
  members_name : ∀ r, (members r).map (·.1) = names
  checked : ∀ {r}, Fits r →
    List.Forall₂ (fun f m => f.name = m.1 ∧ f.check m.2 = .ok ()) decoder.fields (members r)
  readable : ∀ {r}, Fits r → ∀ m ∈ members r, m.2.Readable
  build : ∀ {r get}, Fits r → (∀ m ∈ members r, get m.1 = some m.2) →
    decoder.build get = .ok (built r)
  closed : ∀ {get b} {P : β → Prop}, decoder.build get = .ok b → Closed P → P b

namespace RecordForm

variable {ρ α β : Type} {Fits : ρ → Prop} {names : List String}

/-- No field has been read yet. -/
theorem start (Fits : ρ → Prop) (make : β) :
    RecordForm Fits [] (fun _ => []) (pure make) (fun _ => make) fun P => P make where
  fields_name := rfl
  members_name := fun _ => rfl
  checked := fun _ => .nil
  readable := by simp
  build := fun _ _ => rfl
  closed := by
    intro get b P hBuild hMake
    cases hBuild
    exact hMake

/-- One more field. The decoder is given what it has read, and the record has it under this
field. -/
theorem seq {members : ρ → List (String × Json)} {decoder : RecordDecoder (α → β)}
    {built : ρ → α → β} {Closed : ((α → β) → Prop) → Prop}
    (h : RecordForm Fits names members decoder built Closed) (part : ρ → α) {name : String}
    {write : α → Json} {field : RecordDecoder α} {PartFits : α → Prop}
    (hField : FieldForm name write field PartFits) (hPart : ∀ {r}, Fits r → PartFits (part r)) :
    RecordForm Fits (names ++ [name]) (fun r => members r ++ [(name, write (part r))])
      (decoder <*> field) (fun r => built r (part r))
      fun P => Closed fun f => ∀ a, PartFits a → P (f a) where
  fields_name := by
    obtain ⟨f, hFields, hName, _⟩ := hField.fields
    change (decoder.fields ++ field.fields).map _ = _
    rw [List.map_append, h.fields_name, hFields, List.map_singleton, hName]
  members_name := by
    intro r
    rw [List.map_append, h.members_name]
    rfl
  checked := by
    intro r hFits
    obtain ⟨f, hFields, hName, hCheck⟩ := hField.fields
    change List.Forall₂ _ (decoder.fields ++ field.fields) _
    rw [hFields]
    exact List.rel_append (h.checked hFits) (.cons ⟨hName, hCheck (hPart hFits)⟩ .nil)
  readable := by
    intro r hFits m hMem
    rcases List.mem_append.1 hMem with hMem | hMem
    · exact h.readable hFits m hMem
    · rw [List.mem_singleton.1 hMem]
      exact hField.readable (hPart hFits)
  build := by
    intro r get hFits hGet
    have hBefore := h.build hFits fun m hMem => hGet m (List.mem_append_left _ hMem)
    have hLast := hField.build (hPart hFits) (hGet (name, write (part r)) (by simp))
    exact Except.bind_eq_ok_iff.2 ⟨_, hBefore, Except.bind_eq_ok_iff.2 ⟨_, hLast, rfl⟩⟩
  closed := by
    intro get b P hBuild hClosed
    obtain ⟨f, hF, hBuild⟩ := Except.bind_eq_ok_iff.1 hBuild
    obtain ⟨a, hA, hBuild⟩ := Except.bind_eq_ok_iff.1 hBuild
    cases hBuild
    exact h.closed hF hClosed a (hField.fits hA)

section Objects

/-- Members that are the fields of a record, each once and with a good value, have no errors. -/
theorem checkMembers_eq_ok {fields : List FieldCheck} {seen : List String}
    {members : List (String × Json)}
    (hFields : ∀ m ∈ members, ∃ f, fields.find? (·.name = m.1) = some f ∧ f.check m.2 = .ok ())
    (hOnce : (members.map (·.1)).Nodup) (hNew : ∀ m ∈ members, m.1 ∉ seen) :
    checkMembers fields seen members = .ok () := by
  induction members generalizing seen with
  | nil => rfl
  | cons m members ih =>
      obtain ⟨key, j⟩ := m
      rw [List.forall_mem_cons] at hFields hNew
      rw [List.map_cons, List.nodup_cons] at hOnce
      obtain ⟨⟨f, hFind, hCheck⟩, hFields⟩ := hFields
      have hStillNew : ∀ m ∈ members, m.1 ∉ key :: seen := by
        intro m hMem hSeen
        rcases List.mem_cons.1 hSeen with hSame | hSeen
        · exact hOnce.1 (hSame ▸ List.mem_map_of_mem (f := (·.1)) hMem)
        · exact hNew.2 m hMem hSeen
      have hRest := ih hFields hOnce.2 hStillNew
      have hKey : seen.contains key = false := by simpa using hNew.1
      simp only [checkMembers, hFind, hKey, hCheck]
      exact hRest

theorem exists_field_of_mem {fields : List FieldCheck} {members : List (String × Json)}
    {p : FieldCheck → String × Json → Prop} (h : List.Forall₂ p fields members)
    {m : String × Json} (hMem : m ∈ members) : ∃ f ∈ fields, p f m := by
  induction h with
  | nil => cases hMem
  | cons hHead _ ih =>
      rcases List.mem_cons.1 hMem with rfl | hMem
      · exact ⟨_, List.mem_cons_self, hHead⟩
      · obtain ⟨f, hF, hM⟩ := ih hMem
        exact ⟨f, List.mem_cons_of_mem _ hF, hM⟩

theorem find?_name {fields : List FieldCheck} (hOnce : (fields.map (·.name)).Nodup)
    {f : FieldCheck} (hMem : f ∈ fields) : fields.find? (·.name = f.name) = some f := by
  induction fields with
  | nil => cases hMem
  | cons g fields ih =>
      rw [List.map_cons, List.nodup_cons] at hOnce
      rcases List.mem_cons.1 hMem with rfl | hMem
      · simp
      · have hOther : g.name ≠ f.name := fun h => hOnce.1 (h ▸ List.mem_map_of_mem hMem)
        rw [List.find?_cons, decide_eq_false hOther]
        exact ih hOnce.2 hMem

end Objects

variable {members : ρ → List (String × Json)} {decoder : RecordDecoder ρ} {built : ρ → ρ}
  {Closed : (ρ → Prop) → Prop}

/-- A record all of whose fields have been read is the record that was written. -/
theorem faithful (h : RecordForm Fits names members decoder built Closed)
    (hBuilt : ∀ r, built r = r) (hOnce : names.Nodup) (hClosed : Closed Fits) (origin : Origin)
    (name : String) : Faithful (fun r => .obj (members r)) (decoder.decode origin name) Fits where
  readable := fun hFits => readableMembers_iff.2 (h.readable hFits)
  read_write := by
    intro r hFits
    have hMembers : ((members r).map (·.1)).Nodup := h.members_name r ▸ hOnce
    have hFields : ∀ m ∈ members r, ∃ f, decoder.fields.find? (·.name = m.1) = some f ∧
        f.check m.2 = .ok () := by
      intro m hMem
      obtain ⟨f, hF, hName, hCheck⟩ := exists_field_of_mem (h.checked hFits) hMem
      exact ⟨f, hName ▸ find?_name (h.fields_name ▸ hOnce) hF, hCheck⟩
    have hCheck : checkMembers decoder.fields [] (members r) = .ok () :=
      checkMembers_eq_ok hFields hMembers (by simp)
    have hBuild : decoder.build ((members r).lookup ·) = .ok (built r) :=
      h.build hFits fun m hMem => (mem_iff_lookup_eq_some hMembers).1 hMem
    rw [hBuilt] at hBuild
    exact Except.bind_eq_ok_iff.2 ⟨_, hCheck, hBuild⟩
  fits := by
    intro j r hRead
    cases j with
    | obj members =>
        obtain ⟨_, _, hBuild⟩ := Except.bind_eq_ok_iff.1 hRead
        exact h.closed hBuild hClosed
    | arr items =>
        obtain ⟨_, _, hRead⟩ := Except.bind_eq_ok_iff.1 hRead
        split at hRead
        · exact h.closed hRead hClosed
        · cases hRead
        · cases hRead
        · cases hRead
    | _ => exact absurd hRead not_mismatch_eq_ok

end RecordForm

end SourceSurvey.Json
