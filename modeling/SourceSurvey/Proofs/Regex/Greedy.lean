import SourceSurvey.Proofs.Regex.Count

/-!
Ways through an expression that need no going back. Where each repetition reads all the characters it
can and what follows goes on from there, that is the match, whatever other ways there are.
-/

namespace SourceSurvey

namespace Cursor

/-- The place between two parts of a text. -/
def between (front rest : List Char) : Cursor := ⟨front.getLast?, front.length, rest⟩

/-- The place behind the beginning of a text. -/
theorem place_eq_between (front rest : List Char) :
    place (front ++ rest) front.length = between front rest := by
  rw [place, List.take_left, List.drop_left, between]

theorem between_concat (front : List Char) (c : Char) (rest : List Char) :
    between (front ++ [c]) rest = ⟨some c, front.length + 1, rest⟩ := by
  rw [between, List.getLast?_concat, List.length_append, List.length_singleton]

end Cursor

namespace Regex

open Cursor

/-- The first way through the expression that is tried leads from one place to another: whatever
succeeds from there on, the whole succeeds with it. -/
def Leads (r : Regex) (cur : Cursor) (caps : Captures) (cur' : Cursor) (caps' : Captures) : Prop :=
  ∀ ⦃α : Type⦄ ⦃spot : Spot⦄ ⦃k : Cursor → Thread → Option α⦄ ⦃a : α⦄,
    k cur' ⟨caps', none⟩ = some a → run r spot cur ⟨caps, none⟩ k = some a

variable {r s : Regex} {cur cur' cur'' : Cursor} {caps caps' caps'' : Captures}
  {front read rest text : List Char}

theorem leads_empty : Leads empty cur caps cur caps := fun _ _ _ _ h => h

/-- Where the first expression leads the second goes on. -/
theorem Leads.seq (h : Leads r cur caps cur' caps') (h' : Leads s cur' caps' cur'' caps'') :
    Leads (seq r s) cur caps cur'' caps'' :=
  fun _ _ _ _ hNext => h (h' hNext)

theorem Leads.sequence {parts : List Regex} (h : Leads r cur caps cur' caps')
    (h' : Leads (sequence parts) cur' caps' cur'' caps'') :
    Leads (sequence (r :: parts)) cur caps cur'' caps'' :=
  h.seq h'

theorem Leads.group {number : Nat} (h : Leads r cur caps cur' caps') :
    Leads (group number r) cur caps cur' ((number, cur.index, cur'.index) :: caps') :=
  fun _ _ _ _ hNext => h hNext

theorem leads_literal (front read rest : List Char) (caps : Captures) :
    Leads (literal read) (between front (read ++ rest)) caps (between (front ++ read) rest) caps := by
  induction read generalizing front with
  | nil =>
      rw [List.append_nil]
      exact leads_empty
  | cons c read ih =>
      have hFirst : Leads (set (.oneOf [c])) (between front (c :: (read ++ rest))) caps
          (between (front ++ [c]) (read ++ rest)) caps := by
        intro _ _ k a hNext
        rw [between_concat] at hNext
        rw [run]
        simpa [between, CharSet.contains, Thread.read] using hNext
      have hRest := ih (front ++ [c])
      rw [List.append_assoc, List.singleton_append] at hRest
      exact hFirst.seq hRest

/-- A fixed text leads over itself. -/
theorem leads_text (t : String) (front rest : List Char) (caps : Captures) :
    Leads (Regex.text t) (between front (t.toList ++ rest)) caps (between (front ++ t.toList) rest)
      caps :=
  leads_literal front t.toList rest caps

/-- The last of the places where a span may end is behind all characters of its set. -/
theorem spanPlaces_between {s : CharSet} (hRead : ∀ c ∈ read, s.contains c = true)
    (hEnd : ∀ c ∈ rest.head?, s.contains c = false) (front : List Char) (n : Nat) :
    ∃ earlier, spanPlaces s none front.getLast? front.length n (read ++ rest) =
      earlier ++ [(n + read.length, between (front ++ read) rest)] := by
  induction read generalizing front n with
  | nil =>
      rw [List.append_nil]
      cases rest with
      | nil => exact ⟨[], rfl⟩
      | cons c rest =>
          refine ⟨[], ?_⟩
          rw [List.nil_append, spanPlaces, hEnd c rfl]
          rfl
  | cons c read ih =>
      obtain ⟨hC, hMore⟩ := List.forall_mem_cons.1 hRead
      obtain ⟨earlier, hPlaces⟩ := ih hMore (front ++ [c]) (n + 1)
      rw [List.getLast?_concat, List.length_append, List.length_singleton, List.append_assoc,
        List.singleton_append] at hPlaces
      refine ⟨(n, between front (c :: read ++ rest)) :: earlier, ?_⟩
      rw [List.cons_append, spanPlaces, hC, Option.all_none, Bool.and_self, if_pos rfl, hPlaces,
        List.length_cons, Nat.add_assoc, Nat.add_comm 1]
      rfl

/-- A span that is as long as possible reads all characters of its set. -/
theorem leads_span {s : CharSet} {least : Nat} (hLeast : least ≤ read.length)
    (hRead : ∀ c ∈ read, s.contains c = true) (hEnd : ∀ c ∈ rest.head?, s.contains c = false) :
    Leads (span s ⟨least, none, true⟩) (between front (read ++ rest)) caps
      (between (front ++ read) rest) caps := by
  intro _ _ k a hNext
  obtain ⟨earlier, hPlaces⟩ := spanPlaces_between hRead hEnd front 0
  have hLast : [(0 + read.length, between (front ++ read) rest)].filterMap
      (fun place => if least ≤ place.1 then some place.2 else none) =
        [between (front ++ read) rest] := by
    rw [List.filterMap_cons, Nat.zero_add, if_pos hLeast, List.filterMap_nil]
  have hEnds : ∃ others, spanEnds s ⟨least, none, true⟩ (between front (read ++ rest)) =
      between (front ++ read) rest :: others := by
    rw [spanEnds, if_pos rfl, between, hPlaces, List.filterMap_append, hLast, List.reverse_append]
    exact ⟨_, rfl⟩
  obtain ⟨others, hEnds⟩ := hEnds
  rw [run_span, hEnds, firstSuccess, hNext]

/-- A span that need not read anything stays where it is before another character. -/
theorem leads_span_nil {s : CharSet} (hEnd : ∀ c ∈ rest.head?, s.contains c = false) :
    Leads (span s ⟨0, none, true⟩) (between front rest) caps (between front rest) caps := by
  have hNone : Leads (span s ⟨0, none, true⟩) (between front ([] ++ rest)) caps
      (between (front ++ []) rest) caps :=
    leads_span (Nat.le_refl 0) (List.forall_mem_nil _) hEnd
  rwa [List.append_nil] at hNone

/-- Where an expression leads from a place is where its match ends, unless a loop in it may be
empty. -/
theorem matchAt?_of_leads (hLoops : r.hasEmptyLoop = false) (h : Leads r cur [] cur' caps') :
    matchAt? r cur = some ⟨cur.index, cur'.index, caps'⟩ := by
  change run r [] cur r.thread _ = _
  rw [thread_of_hasEmptyLoop hLoops]
  exact h rfl

/-! ### Texts with a single match or none -/

theorem allMatches_eq_nil (h : ∀ start stop, ¬r.Occurs text start stop) : r.allMatches text = [] := by
  refine (successive_iff.1 (.nil fun i _ hMost => freshAt?_eq_none_of_matchAt? ?_)).symm
  cases hMatch : matchAt? r (place text i) with
  | none => rfl
  | some m => exact absurd ⟨hMost, m, hMatch, rfl⟩ (h i m.stop)

/-- An expression that occurs nowhere captures nothing. -/
theorem firstGroups_eq_nil (h : ∀ start stop, ¬r.Occurs text start stop) :
    r.firstGroups text = [] := by
  rw [firstGroups, allMatches_eq_nil h, List.filterMap_nil]

/-- The only place where the expression matches gives the only match. -/
theorem allMatches_eq_singleton {m : Match} (hMatch : matchAt? r (between front rest) = some m)
    (hSome : m.start < m.stop)
    (hOnly : ∀ start stop, r.Occurs (front ++ rest) start stop → start = front.length) :
    r.allMatches (front ++ rest) = [m] := by
  have hFront : front.length ≤ (front ++ rest).length := by
    rw [List.length_append]
    exact Nat.le_add_right _ _
  have hPlace : matchAt? r (place (front ++ rest) front.length) = some m := by
    rw [place_eq_between, hMatch]
  have hStart : m.start = front.length := (bounds_of_matchAt? hFront hPlace).1
  have hElsewhere : ∀ lastStop i, i ≤ (front ++ rest).length → i ≠ front.length →
      freshAt? r (front ++ rest) lastStop i = none := by
    intro lastStop i hMost hOther
    apply freshAt?_eq_none_of_matchAt?
    cases hFound : matchAt? r (place (front ++ rest) i) with
    | none => rfl
    | some m' => exact absurd (hOnly i m'.stop ⟨hMost, m', hFound, rfl⟩) hOther
  refine (successive_iff.1 (.cons (Nat.zero_le _) hFront ?_ ?_ (.nil ?_))).symm
  · rw [freshAt?_eq_matchAt? hFront (by simp), hPlace]
  · intro i _ hLess
    exact hElsewhere none i (by omega) (by omega)
  · intro i hBehind hMost
    exact hElsewhere _ i hMost (by omega)

/-- Where there is one match only, its group is all that is captured. -/
theorem firstGroups_eq_singleton {before value behind front' rest' : List Char}
    (hLoops : r.hasEmptyLoop = false) (h : Leads r (between front rest) [] (between front' rest')
      [(1, before.length, (before ++ value).length)])
    (hSome : front.length < front'.length) (hText : text = front ++ rest)
    (hValue : text = before ++ value ++ behind)
    (hOnly : ∀ start stop, r.Occurs text start stop → start = front.length) :
    r.firstGroups text = [value] := by
  have hMatches : r.allMatches text = [⟨front.length, front'.length,
      [(1, before.length, (before ++ value).length)]⟩] := by
    rw [hText] at hOnly ⊢
    exact allMatches_eq_singleton (matchAt?_of_leads hLoops h) hSome hOnly
  have hGroup : (text.drop before.length).take ((before ++ value).length - before.length) = value := by
    rw [List.length_append, Nat.add_sub_cancel_left, hValue, List.append_assoc, List.drop_left,
      List.take_left]
  rw [firstGroups, hMatches]
  simp only [List.filterMap_cons, List.filterMap_nil, Match.group?, List.find?_cons, decide_true,
    Option.map_some, hGroup]

end Regex

end SourceSurvey
