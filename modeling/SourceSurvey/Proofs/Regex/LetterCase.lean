import SourceSurvey.Regex.Parser

/-!
Letter case makes no difference to how an expression is read, only to its sets of characters. An
expression that is taken when case matters is therefore taken when it does not, unless its larger
sets make it too large.
-/

namespace SourceSurvey.Regex

/-- Two readings fail in the same way, or both succeed with results that are alike. -/
def Alike {α : Type} (alike : α → α → Prop) : Except SyntaxError α → Except SyntaxError α → Prop
  | .ok a, .ok b => alike a b
  | .error e, .error e' => e = e'
  | _, _ => False

theorem Alike.refl {α : Type} (x : Except SyntaxError α) : Alike Eq x x := by
  cases x <;> exact rfl

/-- Readings that go on alike after alike beginnings are alike. -/
theorem Alike.bind {α β : Type} {before : α → α → Prop} {after : β → β → Prop}
    {x y : Except SyntaxError α} {f g : α → Except SyntaxError β} (h : Alike before x y)
    (hNext : ∀ a b, before a b → Alike after (f a) (g b)) : Alike after (x >>= f) (y >>= g) := by
  cases x with
  | error e =>
      cases y with
      | error e' => exact h
      | ok b => exact absurd h id
  | ok a =>
      cases y with
      | error e' => exact absurd h id
      | ok b => exact hNext a b h

/-- Readers stay alike when they branch on the same condition. -/
theorem Alike.ite {α : Type} {alike : α → α → Prop} {c : Prop} [Decidable c]
    {x x' y y' : Except SyntaxError α} (h : Alike alike x y) (h' : Alike alike x' y') :
    Alike alike (if c then x else x') (if c then y else y') := by
  split
  · exact h
  · exact h'

/-- The same flags, with letter case ignored or not. -/
def Flags.withCase (flags : Flags) (ignoreCase : Bool) : Flags := { flags with ignoreCase }

namespace Parser

section

variable (flags : Flags) (ignoreCase : Bool)

@[simp]
theorem withCase_freeSpacing : (flags.withCase ignoreCase).freeSpacing = flags.freeSpacing := rfl

@[simp]
theorem withCase_unicode : (flags.withCase ignoreCase).unicode = flags.unicode := rfl

@[simp]
theorem classStart_withCase : classStart (flags.withCase ignoreCase) = classStart flags := rfl

end

/-- The same rest is left. -/
def SameRest {α : Type} (x y : α × List Char) : Prop := x.2 = y.2

variable {flags : Flags} {ignoreCase : Bool}

/-- What is escaped differs in a set of characters at most. -/
def SameKind : Escape → Escape → Prop
  | .char c, .char c' => c = c'
  | .charSet _, .charSet _ => True
  | .place a, .place a' => a = a'
  | _, _ => False

theorem SameKind.refl (escaped : Escape) : SameKind escaped escaped := by
  cases escaped <;> trivial

/-- An escape is of the same kind and just as long with either letter case. What it stands for may
differ. -/
theorem escape_alike [Engine] (rest : List Char) :
    Alike (fun x y => SameKind x.1 y.1 ∧ SameRest x y) (escape flags rest)
      (escape (flags.withCase ignoreCase) rest) := by
  have hSame (x : Except SyntaxError (Escape × List Char)) :
      Alike (fun x y => SameKind x.1 y.1 ∧ SameRest x y) x x := by
    cases x with
    | error e => exact rfl
    | ok result => exact ⟨.refl _, rfl⟩
  rw [escape.eq_def, escape.eq_def, withCase_unicode]
  cases rest with
  | nil => exact rfl
  | cons c rest =>
      dsimp only
      refine Alike.ite (hSame _) (Alike.ite (hSame _) (Alike.ite (hSame _) (Alike.ite (hSame _)
        (Alike.ite rfl (Alike.ite ?_ (Alike.ite ?_ (hSame _)))))))
      all_goals
        refine (Alike.refl (propertyClass rest)).bind fun found found' hFound => ?_
        subst hFound
        exact ⟨trivial, rfl⟩

/-- A character is the same, a set may differ. -/
def SameItem : Char ⊕ CharSet → Char ⊕ CharSet → Prop
  | .inl c, .inl c' => c = c'
  | .inr _, .inr _ => True
  | _, _ => False

/-- So is an item of a class. -/
theorem classItem_alike [Engine] (rest : List Char) :
    Alike (fun x y => SameItem x.1 y.1 ∧ SameRest x y) (classItem flags rest)
      (classItem (flags.withCase ignoreCase) rest) := by
  rw [classItem.eq_def, classItem.eq_def, withCase_unicode]
  split
  · exact rfl
  · refine (escape_alike _).bind ?_
    rintro ⟨escaped, rest⟩ ⟨escaped', rest'⟩ ⟨hKind, hRest⟩
    change rest = rest' at hRest
    subst hRest
    cases escaped with
    | char c =>
        cases escaped' with
        | char c' =>
            cases hKind
            exact Alike.ite rfl ⟨rfl, rfl⟩
        | charSet _ | place _ => exact absurd hKind id
    | charSet s =>
        cases escaped' with
        | charSet s' => exact ⟨trivial, rfl⟩
        | char _ | place _ => exact absurd hKind id
    | place a =>
        cases escaped' with
        | place a' => exact rfl
        | char _ | charSet _ => exact absurd hKind id
  · exact Alike.ite rfl ⟨rfl, rfl⟩

/-- Ranges are checked before letter case is considered. -/
theorem classRange_alike [Engine] (rest : List Char) :
    Alike SameRest (classRange flags rest) (classRange (flags.withCase ignoreCase) rest) := by
  rw [classRange, classRange, withCase_freeSpacing]
  refine (classItem_alike _).bind ?_
  rintro ⟨first, rest⟩ ⟨first', rest'⟩ ⟨hFirst, hRest⟩
  change rest = rest' at hRest
  subst hRest
  dsimp only
  split
  · exact rfl
  · split
    · exact rfl
    · exact rfl
    · exact rfl
    · refine (classItem_alike _).bind ?_
      rintro ⟨last, rest⟩ ⟨last', rest'⟩ ⟨hLast, hRest⟩
      change rest = rest' at hRest
      subst hRest
      cases first <;> cases first' <;> try exact absurd hFirst id
      all_goals cases last <;> cases last' <;> try exact absurd hLast id
      · cases hFirst
        cases hLast
        exact Alike.ite rfl rfl
      all_goals exact rfl
  · exact rfl

theorem namedClass?_withCase (rest : List Char) :
    (namedClass? (flags.withCase ignoreCase) rest).map (·.2) =
      (namedClass? flags rest).map (·.2) := by
  rw [namedClass?.eq_def, namedClass?.eq_def]
  split
  · dsimp only
    split
    · rw [Option.map_map, Option.map_map]
      rfl
    · rfl
  · rfl

/-- However the parts read so far differ, the same rest is left. -/
def AlikeClasses (read read' : ClassReader) : Prop :=
  ∀ pending pending' items items' rest,
    Alike SameRest (read pending items rest) (read' pending' items' rest)

/-- One step in a class keeps two readers alike if they are for the classes inside it. -/
theorem classStep_alike [Engine] {read read' : ClassReader} (hRead : AlikeClasses read read') :
    AlikeClasses (classStep flags read) (classStep (flags.withCase ignoreCase) read') := by
  intro pending pending' items items' rest
  rw [classStep.eq_def, classStep.eq_def, withCase_freeSpacing]
  generalize skipSpacing flags.freeSpacing rest = skipped
  split
  · exact rfl
  · exact rfl
  · rename_i inner
    have hNamed := @namedClass?_withCase flags ignoreCase inner
    cases hFound : namedClass? flags inner with
    | some named =>
        obtain ⟨named', hFound', hRest⟩ := Option.map_eq_some_iff.1 (hNamed.trans (by rw [hFound]; rfl))
        rw [hFound']
        dsimp only
        rw [hRest]
        exact hRead _ _ _ _ _
    | none =>
        rw [hFound, Option.map_none, Option.map_eq_none_iff] at hNamed
        rw [hNamed, classStart_withCase]
        generalize classStart flags inner = start
        apply (hRead _ _ _ _ _).bind
        intro ⟨s, rest⟩ ⟨s', rest'⟩ hRest
        change rest = rest' at hRest
        subst hRest
        exact hRead _ _ _ _ _
  · cases setOperator? skipped with
    | some operation => exact hRead _ _ _ _ _
    | none =>
        apply (classRange_alike _).bind
        intro ⟨s, rest⟩ ⟨s', rest'⟩ hRest
        change rest = rest' at hRest
        subst hRest
        exact hRead _ _ _ _ _

/-- By induction over the fuel, which both readers have the same of. -/
theorem classBody_alike [Engine] (fuel : Nat) :
    AlikeClasses (classBody flags fuel) (classBody (flags.withCase ignoreCase) fuel) := by
  induction fuel with
  | zero => exact fun _ _ _ _ _ => rfl
  | succ fuel ih => exact classStep_alike ih

theorem bracketClass_alike [Engine] (rest : List Char) :
    Alike SameRest (bracketClass flags rest) (bracketClass (flags.withCase ignoreCase) rest) := by
  rw [bracketClass, bracketClass, classStart_withCase]
  generalize classStart flags rest = start
  apply (classBody_alike _ _ _ _ _ _).bind
  intro ⟨s, rest⟩ ⟨s', rest'⟩ hRest
  change rest = rest' at hRest
  subst hRest
  rw [withCase_unicode]
  exact Alike.ite rfl rfl

/-! ### Repetitions and flags -/

@[simp]
theorem quantifier?_withCase :
    quantifier? (flags.withCase ignoreCase) = quantifier? flags := rfl

theorem Part.depth_repeated (p : Part) (bounds : Bounds) :
    (p.repeated bounds).depth = p.depth + 1 := by
  rw [repeated]
  split <;> rfl

/-- Repetitions add the same depth to expressions that have the same. -/
theorem repetitions_alike (fuel : Nat) {p p' : Part} (h : p.depth = p'.depth) (rest : List Char) :
    Alike (fun x y => x.1.depth = y.1.depth ∧ SameRest x y) (repetitions flags p fuel rest)
      (repetitions (flags.withCase ignoreCase) p' fuel rest) := by
  induction fuel generalizing p p' rest with
  | zero => exact ⟨h, rfl⟩
  | succ fuel ih =>
      rw [repetitions, repetitions, quantifier?_withCase, withCase_freeSpacing]
      apply (Alike.refl _).bind
      intro quantifier quantifier' hSame
      subst hSame
      split
      · exact ⟨h, rfl⟩
      · apply ih
        rw [Part.depth_repeated, Part.depth_repeated, h]

/-- Flags in the expression may turn letter case on or off, and leave all else as it is. -/
theorem setFlag_withCase (flags : Flags) (ignoreCase on : Bool) (c : Char) : ∃ ignoreCase',
    setFlag (flags.withCase ignoreCase) on c = (setFlag flags on c).map (·.withCase ignoreCase') := by
  by_cases hCase : c = 'i'
  · exact ⟨on, by rw [hCase]; rfl⟩
  · refine ⟨ignoreCase, ?_⟩
    rw [setFlag.eq_def, setFlag.eq_def]
    split
    · exact absurd rfl hCase
    all_goals rfl

/-- The flags of a group differ only in letter case, and so do those of everything inside. -/
theorem flagList_alike (seen : List Char) (on dangling : Bool) (rest : List Char) :
    Alike (fun x y => (∃ ignoreCase, y.1 = x.1.withCase ignoreCase) ∧ x.2 = y.2)
      (flagList flags seen on dangling rest)
      (flagList (flags.withCase ignoreCase) seen on dangling rest) := by
  induction rest generalizing flags ignoreCase seen on dangling with
  | nil => exact rfl
  | cons c rest ih =>
      rw [flagList, flagList]
      refine Alike.ite (Alike.ite rfl ⟨⟨ignoreCase, rfl⟩, rfl⟩) (Alike.ite (Alike.ite ?_ rfl) ?_)
      · exact ih _ _ _
      · refine Alike.ite rfl ?_
        obtain ⟨ignoreCase', hSet⟩ := setFlag_withCase flags ignoreCase on c
        rw [hSet]
        cases setFlag flags on c with
        | none => exact rfl
        | some changed => exact ih _ _ _

/-! ### Whole expressions -/

/-- States that differ at most in whether letter case is ignored. -/
def SameButCase (st st' : State) : Prop :=
  ∃ ignoreCase, st' = { st with flags := st.flags.withCase ignoreCase }

/-- Parts that are nested equally deep, and states that differ at most in letter case. -/
def AlikeParts (x y : Part × State) : Prop := x.1.depth = y.1.depth ∧ SameButCase x.2 y.2

def SameDepths (parts parts' : List Part) : Prop := parts.map (·.depth) = parts'.map (·.depth)

def AlikeReaders (read read' : Reader) : Prop :=
  ∀ branches branches' items items' st st', SameDepths branches branches' →
    SameDepths items items' → SameButCase st st' →
    Alike AlikeParts (read branches items st) (read' branches' items' st')

theorem SameDepths.cons {p p' : Part} {parts parts' : List Part} (hHead : p.depth = p'.depth)
    (h : SameDepths parts parts') : SameDepths (p :: parts) (p' :: parts') := by
  rw [SameDepths, List.map_cons, List.map_cons, hHead, h]

/-- Expressions in a row are as deep as the deepest of them, with either letter case. -/
theorem listDepth_eq {parts parts' : List Part} (h : SameDepths parts parts') :
    listDepth parts = listDepth parts' := by
  have hLength : parts.length = parts'.length := by
    simpa using congrArg List.length h
  rw [listDepth, listDepth, h, hLength]

section

variable {read read' : Reader} {branches branches' items items' : List Part} {st st' : State}

/-- Two readers stay alike behind items of the same depth. -/
theorem afterItem_alike (hRead : AlikeReaders read read') (hBranches : SameDepths branches branches')
    (hItems : SameDepths items items') {p p' : Part} (hDepth : p.depth = p'.depth)
    (hState : SameButCase st st') :
    Alike AlikeParts (afterItem read branches items p st)
      (afterItem read' branches' items' p' st') := by
  obtain ⟨ignoreCase, rfl⟩ := hState
  rw [afterItem, afterItem]
  apply (repetitions_alike _ hDepth _).bind
  intro ⟨p, rest⟩ ⟨p', rest'⟩ hSame
  obtain ⟨hDepth, hRest⟩ := hSame
  change rest = rest' at hRest
  subst hRest
  exact hRead _ _ _ _ _ _ hBranches (hItems.cons hDepth) ⟨ignoreCase, rfl⟩

theorem groupName_alike (hState : SameButCase st st') :
    Alike (fun x y => SameButCase x.2 y.2) (groupName st) (groupName st') := by
  obtain ⟨ignoreCase, rfl⟩ := hState
  rw [groupName.eq_def, groupName.eq_def]
  dsimp only
  split
  · exact rfl
  · split
    · exact rfl
    · exact Alike.ite rfl (Alike.ite rfl ⟨ignoreCase, rfl⟩)

/-- The body of a group is read alike, whether or not letter case is changed in it. -/
theorem groupBody_alike (hRead : AlikeReaders read read') (number? : Option Nat) {flags : Flags}
    {flags' : Flags} (hFlags : ∃ ignoreCase, flags' = flags.withCase ignoreCase)
    (hState : SameButCase st st') :
    Alike AlikeParts (groupBody read number? flags st) (groupBody read' number? flags' st') := by
  obtain ⟨ignoreCase, rfl⟩ := hState
  obtain ⟨inner, rfl⟩ := hFlags
  rw [groupBody, groupBody]
  apply (hRead _ _ _ _ _ _ rfl rfl ⟨inner, rfl⟩).bind
  intro ⟨p, after⟩ ⟨p', after'⟩ hSame
  obtain ⟨hDepth, after, rfl⟩ := hSame
  dsimp only
  split
  · exact ⟨congrArg (· + 1) hDepth, ignoreCase, rfl⟩
  · exact rfl

theorem capture_alike (hRead : AlikeReaders read read') (hState : SameButCase st st') :
    Alike AlikeParts (capture read st) (capture read' st') := by
  obtain ⟨ignoreCase, rfl⟩ := hState
  exact groupBody_alike hRead _ ⟨ignoreCase, rfl⟩ ⟨ignoreCase, rfl⟩

/-- The same for all that stands in brackets, with the flags that are set there. -/
theorem bracketed_alike (hRead : AlikeReaders read read') (hBranches : SameDepths branches branches')
    (hItems : SameDepths items items') (hState : SameButCase st st') (rest : List Char) :
    Alike AlikeParts (bracketed read branches items st rest)
      (bracketed read' branches' items' st' rest) := by
  have hAfter {x y : Except SyntaxError (Part × State)} (h : Alike AlikeParts x y) :
      Alike AlikeParts (x >>= fun p => afterItem read branches items p.1 p.2)
        (y >>= fun p => afterItem read' branches' items' p.1 p.2) :=
    h.bind fun _ _ hSame => afterItem_alike hRead hBranches hItems hSame.1 hSame.2
  obtain ⟨ignoreCase, rfl⟩ := hState
  rw [bracketed.eq_def, bracketed.eq_def]
  split
  · exact rfl
  · exact rfl
  · exact rfl
  · exact rfl
  · apply (groupName_alike ⟨ignoreCase, rfl⟩).bind
    intro _ _ hSame
    exact hAfter (capture_alike hRead hSame)
  · apply (groupName_alike ⟨ignoreCase, rfl⟩).bind
    intro _ _ hSame
    exact hAfter (capture_alike hRead hSame)
  · apply (flagList_alike _ _ _ _).bind
    intro ⟨flags, unset, rest⟩ ⟨flags', unset', rest'⟩ hSame
    obtain ⟨hFlags, hRest⟩ := hSame
    obtain ⟨rfl, rfl⟩ := Prod.mk.inj hRest
    dsimp only
    split
    · exact rfl
    · obtain ⟨changed, rfl⟩ := hFlags
      exact hRead _ _ _ _ _ _ hBranches hItems ⟨changed, rfl⟩
    · exact hAfter (groupBody_alike hRead none hFlags ⟨ignoreCase, rfl⟩)
  · exact hAfter (capture_alike hRead ⟨ignoreCase, rfl⟩)

theorem alternation_depth (h : SameDepths branches branches') (hItems : SameDepths items items') :
    (alternation (branch items) branches).depth = (alternation (branch items') branches').depth :=
  listDepth_eq (SameDepths.cons (listDepth_eq hItems) h)

/-- One step keeps two readers alike if they are for the groups inside it. -/
theorem step_alike [Engine] (hRead : AlikeReaders read read') :
    AlikeReaders (step read) (step read') := by
  intro branches branches' items items' st st' hBranches hItems hState
  have hItem {r r' : Regex} {depth : Nat} {st st' : State} (h : SameButCase st st') :
      Alike AlikeParts (afterItem read branches items ⟨r, depth⟩ st)
        (afterItem read' branches' items' ⟨r', depth⟩ st') :=
    afterItem_alike hRead hBranches hItems rfl h
  obtain ⟨ignoreCase, rfl⟩ := hState
  rw [step.eq_def, step.eq_def]
  dsimp only
  split
  · exact ⟨alternation_depth hBranches hItems, ignoreCase, rfl⟩
  · exact ⟨alternation_depth hBranches hItems, ignoreCase, rfl⟩
  · refine hRead _ _ _ _ _ _ (SameDepths.cons ?_ hBranches) rfl ⟨ignoreCase, rfl⟩
    exact listDepth_eq hItems
  · exact bracketed_alike hRead hBranches hItems ⟨ignoreCase, rfl⟩ _
  · apply (bracketClass_alike _).bind
    intro ⟨s, rest⟩ ⟨s', rest'⟩ hRest
    change rest = rest' at hRest
    subst hRest
    exact hItem ⟨ignoreCase, rfl⟩
  · apply (escape_alike _).bind
    intro ⟨escaped, rest⟩ ⟨escaped', rest'⟩ hSame
    obtain ⟨_, hRest⟩ := hSame
    change rest = rest' at hRest
    subst hRest
    exact hItem ⟨ignoreCase, rfl⟩
  · apply (Alike.refl _).bind
    intro r r' hSame
    subst hSame
    exact hItem ⟨ignoreCase, rfl⟩
  · exact hItem ⟨ignoreCase, rfl⟩
  · exact hItem ⟨ignoreCase, rfl⟩
  · exact Alike.ite rfl (hItem ⟨ignoreCase, rfl⟩)

/-- By induction over the fuel: letter case makes no difference to what is an expression, only to
the size of it. -/
theorem alternatives_alike [Engine] (fuel : Nat) :
    AlikeReaders (alternatives fuel) (alternatives fuel) := by
  induction fuel with
  | zero => exact fun _ _ _ _ _ _ _ _ _ => rfl
  | succ fuel ih =>
      intro branches branches' items items' st st' hBranches hItems hState
      obtain ⟨ignoreCase, rfl⟩ := hState
      exact step_alike ih _ _ _ _ _ _ hBranches hItems ⟨ignoreCase, rfl⟩

end

end Parser

theorem taken_of_depth_eq [Engine] {p p' : Parser.Part} {rest : List Char} {r : Regex}
    (hDepth : p.depth = p'.depth) (h : taken p rest = .ok r) :
    (∃ r', taken p' rest = .ok r') ∨ taken p' rest = .error .tooLarge := by
  cases rest with
  | cons c rest => simp [taken] at h
  | nil =>
      have hDeep : ¬maxDepth < p'.depth := by
        intro hDeep
        simp [taken, hDepth, hDeep] at h
      rw [taken, if_neg hDeep]
      cases hFits : Engine.fits p'.regex with
      | false => exact Or.inr rfl
      | true => exact Or.inl ⟨p'.regex, rfl⟩

/-- An expression that is taken when case matters is taken when it does not, unless it is then too
large. -/
theorem parse_ignoringCase [Engine] {pattern : String} {r : Regex} (h : parse false pattern = .ok r) :
    (∃ r', parse true pattern = .ok r') ∨ parse true pattern = .error .tooLarge := by
  have hAlike := Parser.alternatives_alike (2 * pattern.toList.length + 2) [] [] [] []
    { rest := pattern.toList, flags := { ignoreCase := false }, groups := 0, names := [] }
    { rest := pattern.toList, flags := { ignoreCase := true }, groups := 0, names := [] }
    rfl rfl ⟨true, rfl⟩
  rw [parse] at h ⊢
  dsimp only at h ⊢
  generalize Parser.alternatives (2 * pattern.toList.length + 2) [] []
    { rest := pattern.toList, flags := { ignoreCase := false }, groups := 0, names := [] } = read
    at h hAlike
  generalize Parser.alternatives (2 * pattern.toList.length + 2) [] []
    { rest := pattern.toList, flags := { ignoreCase := true }, groups := 0, names := [] } = read'
    at hAlike ⊢
  cases read with
  | error e => simp [bind, Except.bind] at h
  | ok result =>
      cases read' with
      | error e => exact absurd hAlike id
      | ok result' =>
          obtain ⟨hDepth, ignoreCase, hState⟩ := hAlike
          have hRest : result'.2.rest = result.2.rest := by rw [hState]
          simp only [bind, Except.bind] at h ⊢
          rw [hRest]
          exact taken_of_depth_eq hDepth h

end SourceSurvey.Regex
