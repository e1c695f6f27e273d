import HeaderRename.Run.Table

/-!
# The errors of a run

A run that is given roots ends in an error of its search, of the listing command or of a file. None
of these is worded as an error of the configuration, nor as the error that no roots are given.
-/
set_option autoImplicit false

namespace HeaderRename

namespace Error

/-- An error of the work that a run does, not of what it was told to do. -/
def IsOfRun : Error → Prop
  | discovery fault => fault ≠ .noRoots
  | process _ => True
  | file _ => True
  | config _ => False
  | other _ => False

end Error

theorem head?_toList_append {front rest : String} {c : Char} (h : front.toList.head? = some c) :
    (front ++ rest).toList.head? = some c := by
  rw [String.toList_append, List.head?_append, h, Option.some_or]

theorem DiscoveryError.head?_message (fault : DiscoveryError) (h : fault ≠ .noRoots) :
    fault.message.toList.head? ≠ some 'n' := by
  have hLetter : ∀ c, c ≠ 'n' → fault.message.toList.head? = some c →
      fault.message.toList.head? ≠ some 'n' := by
    intro c hLetter hHead
    rw [hHead]
    simpa using hLetter
  cases fault with
  | noRoots => exact absurd rfl h
  | rootNotFound | notADirectory =>
    exact hLetter 's' (by decide) (head?_toList_append (by decide +kernel))
  | invalidPattern =>
    refine hLetter 'i' (by decide) (head?_toList_append (head?_toList_append ?_))
    exact head?_toList_append (by decide +kernel)
  | walk =>
    refine hLetter 'f' (by decide) (head?_toList_append (head?_toList_append ?_))
    exact head?_toList_append (by decide +kernel)

namespace Error

def letter : Error → Option Char
  | discovery _ => some 'd'
  | process _ => some 'p'
  | config _ => some 'c'
  | file _ => some 'f'
  | other message => message.toList.head?

theorem head?_message (error : Error) : error.message.toList.head? = error.letter := by
  cases error with
  | discovery | process | config | file => exact head?_toList_append (by decide +kernel)
  | other => rfl

theorem chain_ne_config {error : Error} (h : error.IsOfRun) (fault : ConfigError) :
    error.chain ≠ (config fault).chain := by
  intro hChain
  obtain ⟨hMessage, _⟩ := List.cons_eq_cons.mp hChain
  have hLetter : error.letter = some 'c' := by
    rw [← head?_message, hMessage, head?_message, letter]
  cases error with
  | config | other => exact h
  | discovery | process | file => simp [letter] at hLetter

theorem chain_ne_noRoots {error : Error} (h : error.IsOfRun) :
    error.chain ≠ (discovery .noRoots).chain := by
  intro hChain
  obtain ⟨hMessage, hCauses⟩ := List.cons_eq_cons.mp hChain
  have hLetter : error.letter = some 'd' := by
    rw [← head?_message, hMessage, head?_message, letter]
  cases error with
  | config | other => exact h
  | process | file => simp [letter] at hLetter
  | discovery fault =>
    -- the same kind of error: the wording of its cause tells them apart
    have hCause : fault.message = DiscoveryError.noRoots.message := (List.cons_eq_cons.mp hCauses).1
    apply fault.head?_message h
    rw [hCause]
    decide +kernel

end Error

namespace Search

variable (disk : Disk)

theorem rootFault?_ne_noRoots (root : String) : rootFault? disk root ≠ some .noRoots := by
  unfold rootFault?
  split <;> simp

theorem error_walkRoots_ne_noRoots (options : WalkOptions) (accepts : String → Bool)
    (roots : List String) :
    (Walk.walkRoots disk options accepts roots).error ≠ some .noRoots := by
  induction roots with
  | nil => simp [Walk.walkRoots]
  | cons root roots ih =>
    unfold Walk.walkRoots
    split
    · split
      · simp
      · exact ih
    · simp

theorem error_files_ne_noRoots (options : WalkOptions) (pattern : String) (roots : List String) :
    (Walk.files disk options pattern roots).error ≠ some .noRoots := by
  unfold Walk.files
  split
  · simp
  · exact error_walkRoots_ne_noRoots disk options _ roots

variable {disk} {search : Search} {error : Error}

theorem isOfRun_of_walk (h : (search.walk disk).result = .error error) : error.IsOfRun := by
  unfold walk at h
  dsimp only at h
  cases hError : (Walk.files disk search.options search.pattern search.roots).error with
  | none => simp [hError] at h
  | some fault =>
    simp only [hError, Except.error.injEq] at h
    subst h
    rintro rfl
    exact error_files_ne_noRoots disk _ _ _ hError

theorem isOfRun_of_list (h : (search.list disk).result = .error error) : error.IsOfRun := by
  unfold list at h
  dsimp only at h
  split at h
  · cases h
    trivial
  · split at h
    · cases h
    · cases h
      trivial

theorem isOfRun_of_run (hRoots : search.roots ≠ [])
    (h : (search.run disk).result = .error error) : error.IsOfRun := by
  unfold run at h
  rw [if_neg (by simpa using hRoots)] at h
  split at h
  · next fault hFault =>
    cases h
    rintro rfl
    obtain ⟨root, _, hRoot⟩ := List.exists_of_findSome?_eq_some hFault
    exact rootFault?_ne_noRoots disk root hRoot
  · dsimp only at h
    cases hBackend : search.backend with
    | walk =>
      simp only [hBackend] at h
      split at h
      · next hResult =>
        cases h
        exact isOfRun_of_walk hResult
      · cases h
    | find =>
      simp only [hBackend] at h
      split at h
      · next hResult =>
        cases h
        exact isOfRun_of_list hResult
      · cases h

end Search

namespace Run

variable {run : Run} {error : Error}

theorem isOfRun_of_visit {progress : Progress} {path : String}
    (h : run.visit progress path = .error error) : error.IsOfRun := by
  unfold visit at h
  split at h
  · cases h
    trivial
  · cases h

theorem isOfRun_of_visitAll {progress : Progress} {paths : List String}
    (h : (run.visitAll progress paths).2 = some error) : error.IsOfRun := by
  induction paths generalizing progress with
  | nil => cases h
  | cons path paths ih =>
    unfold visitAll at h
    split at h
    · next hVisit =>
      cases h
      exact isOfRun_of_visit hVisit
    · exact ih h

theorem isOfRun_of_execute (hRoots : run.search.roots ≠ []) {disk : Disk}
    (h : (run.execute disk).result = .error error) : error.IsOfRun := by
  unfold execute at h
  dsimp only at h
  split at h
  · next hFound =>
    cases h
    exact Search.isOfRun_of_run hRoots hFound
  · split at h
    · next hAll =>
      cases h
      exact isOfRun_of_visitAll (congrArg Prod.snd hAll)
    · cases h

end Run

end HeaderRename
