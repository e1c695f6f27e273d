import HeaderRename.Arguments.Reading

/-!
# Global options in front of a command

The words of a global option are read in the same way by every grammar that knows the global
options, and none of them is taken for a command. After them nothing is open but, at most, the value
of the last one.
-/
set_option autoImplicit false

namespace HeaderRename

namespace UsageError

/-- What is asked for in place of a run; all other errors tell of a wrong command line. -/
def IsRequest (error : UsageError) : Prop :=
  error = displayHelp ∨ error = displayVersion

end UsageError

namespace Arguments

/-- A global option as it is written: a flag, an option with its value in one word, or one whose
value is the next word. -/
inductive IsGlobal : List String → Prop where
  | flag {word : String} {option : OptionName} (hOption : option ∈ Grammar.globals)
    (hTakes : option.takesValue = false) (hWord : Word.ofString word = .long option.long none) :
    IsGlobal [word]
  | long {word value : String} {option : OptionName} (hOption : option ∈ Grammar.globals)
    (hTakes : option.takesValue = true)
    (hWord : Word.ofString word = .long option.long (some value)) : IsGlobal [word]
  | short {word : String} {letter first : Char} {others : List Char} {option : OptionName}
    (hOption : option ∈ Grammar.globals) (hLetter : option.short? = some letter)
    (hWord : Word.ofString word = .cluster (letter :: first :: others)) : IsGlobal [word]
  | apart {word value text : String} {option : OptionName} (hOption : option ∈ Grammar.globals)
    (hTakes : option.takesValue = true)
    (hWord : Word.ofString word = .long option.long none ∨
      ∃ letter, option.short? = some letter ∧ Word.ofString word = .cluster [letter])
    (hValue : Word.ofString value = .plain text) : IsGlobal [word, value]

end Arguments

namespace Grammar

structure KnowsGlobals (grammar : Grammar) : Prop where
  long? : ∀ option ∈ globals, grammar.long? option.long = some option
  short? : ∀ option ∈ globals, ∀ letter, option.short? = some letter →
    grammar.short? letter = some option

theorem takesValue_of_short? : ∀ option ∈ globals, option.short?.isSome = true →
    option.takesValue = true := by
  decide

theorem knowsGlobals_program : program.KnowsGlobals where
  long? := by decide
  short? := by simp [OptionName.short?, program, globals, Grammar.short?]

theorem knowsGlobals_standalone : standalone.KnowsGlobals where
  long? := by decide
  short? := by simp [OptionName.short?, standalone, globals, Grammar.short?]

end Grammar

/-- A reading that fails for a wrong word, and not since something else was asked for. -/
def Blames {α : Type} (result : Except UsageError α) : Prop :=
  ∀ error, result = .error error → ¬error.IsRequest

namespace Blames

variable {α β : Type}

theorem ok (a : α) : Blames (.ok a : Except UsageError α) := by
  rintro error h
  cases h

theorem error {error : UsageError} (h : ¬error.IsRequest) :
    Blames (.error error : Except UsageError α) := by
  rintro _ ⟨⟩
  exact h

theorem bind {x : Except UsageError α} {f : α → Except UsageError β} (hx : Blames x)
    (hf : ∀ a, Blames (f a)) : Blames (x >>= f) := by
  cases x with
  | error error => exact .error (hx error rfl)
  | ok a => exact hf a

theorem map {x : Except UsageError α} (hx : Blames x) (f : α → β) : Blames (x.map f) := by
  cases x with
  | error error => exact .error (hx error rfl)
  | ok a => exact .ok (f a)

end Blames

namespace Draft

variable (draft : Draft)

theorem blames_once {α : Type} (old : Option α) {value : Except UsageError α}
    (h : Blames value) : Blames (once old value) := by
  rw [once]
  split
  · exact .error (by simp [UsageError.IsRequest])
  · exact h

theorem blames_path (text : String) : Blames (path text) := by
  rw [path]
  split
  · exact .error (by simp [UsageError.IsRequest])
  · exact .ok text

theorem blames_level (text : String) : Blames (level text) := by
  rw [level]
  repeat' split
  all_goals first | exact .ok _ | exact .error (by simp [UsageError.IsRequest])

theorem blames_backend (text : String) : Blames (backend text) := by
  rw [backend]
  split
  · exact .ok _
  · exact .error (by simp [UsageError.IsRequest])

theorem blames_give (option : OptionName) (text : String) : Blames (draft.give option text) := by
  cases option with
  | ini => exact (blames_path text).bind fun _ => .ok _
  | logLevel | fileLogLevel => exact (blames_once _ (blames_level text)).bind fun _ => .ok _
  | logFile => exact (blames_once _ (blames_path text)).bind fun _ => .ok _
  | backend => exact (blames_once _ (blames_backend text)).bind fun _ => .ok _
  | set => exact .ok _
  | pattern => exact (blames_once _ (.ok text)).bind fun _ => .ok _
  | dry | noDefaultInis | help | version => exact .error (by simp [UsageError.IsRequest])

theorem blames_flag {option : OptionName} (h : option ∈ Grammar.globals) :
    Blames (draft.flag option) := by
  cases option with
  | dry | noDefaultInis =>
    rw [flag]
    split
    · exact .error (by simp [UsageError.IsRequest])
    · exact .ok _
  | ini | logLevel | fileLogLevel | logFile | backend | set | pattern =>
    exact .error (by simp [UsageError.IsRequest])
  | help | version => simp [Grammar.globals] at h

theorem blames_addRoots (roots : List String) : Blames (draft.addRoots roots) := by
  rw [addRoots]
  split
  · exact .error (by simp [UsageError.IsRequest])
  · exact .ok _

theorem blames_addTable (text : String) : Blames (draft.addTable text) := by
  rw [addTable]
  split
  · exact .ok _
  · exact .error (by simp [UsageError.IsRequest])

/-- What global options alone have said. -/
def ofGlobal (global : GlobalOptions) : Draft :=
  { empty with global }

theorem exists_give_ofGlobal (g : GlobalOptions) {option : OptionName}
    (h : option ∈ Grammar.globals) (text : String) :
    ∃ global? : Except UsageError GlobalOptions,
      (ofGlobal g).give option text = global?.map ofGlobal := by
  cases option with
  | ini =>
    exact ⟨(path text).map fun path => { g with inis := g.inis ++ [path] },
      by rw [give]; cases path text <;> rfl⟩
  | logLevel =>
    exact ⟨(once g.logLevel (level text)).map fun level => { g with logLevel := some level },
      by rw [give]; dsimp only [ofGlobal]; cases once g.logLevel (level text) <;> rfl⟩
  | fileLogLevel =>
    exact ⟨(once g.fileLogLevel (level text)).map fun level => { g with fileLogLevel := some level },
      by rw [give]; dsimp only [ofGlobal]; cases once g.fileLogLevel (level text) <;> rfl⟩
  | logFile =>
    exact ⟨(once g.logFile (path text)).map fun path => { g with logFile := some path },
      by rw [give]; dsimp only [ofGlobal]; cases once g.logFile (path text) <;> rfl⟩
  | backend =>
    exact ⟨(once g.backend (backend text)).map fun backend => { g with backend := some backend },
      by rw [give]; dsimp only [ofGlobal]; cases once g.backend (backend text) <;> rfl⟩
  | set => exact ⟨.ok { g with options := g.options ++ [text] }, rfl⟩
  | dry | noDefaultInis => exact ⟨.error .tooManyValues, rfl⟩
  | pattern | help | version => simp [Grammar.globals] at h

theorem exists_flag_ofGlobal (g : GlobalOptions) {option : OptionName}
    (h : option ∈ Grammar.globals) :
    ∃ global? : Except UsageError GlobalOptions,
      (ofGlobal g).flag option = global?.map ofGlobal := by
  cases option with
  | dry =>
    exact ⟨if g.dry then .error .argumentConflict else .ok { g with dry := true },
      by rw [apply_ite (Except.map ofGlobal)]; rfl⟩
  | noDefaultInis =>
    exact ⟨if g.noDefaultInis then .error .argumentConflict else .ok { g with noDefaultInis := true },
      by rw [apply_ite (Except.map ofGlobal)]; rfl⟩
  | ini | logLevel | fileLogLevel | logFile | backend | set => exact ⟨.error .invalidValue, rfl⟩
  | pattern | help | version => simp [Grammar.globals] at h

end Draft

namespace Scan

theorem blames_close (scan : Scan) : Blames scan.close := by
  rw [close]
  cases scan.pending with
  | nothing => exact .ok _
  | awaiting option => exact .error (by simp [UsageError.IsRequest])
  | value option text => exact scan.draft.blames_give option text
  | roots paths => exact scan.draft.blames_addRoots paths
  | table name => exact scan.draft.blames_addTable name

/-- Global options have been read, and nothing is open but, at most, the value of one. -/
structure Between (scan : Scan) : Prop where
  plainOnly : scan.plainOnly = false
  pending : scan.pending = .nothing ∨
    ∃ option ∈ Grammar.globals, ∃ text, scan.pending = .value option text
  draft : ∃ global, scan.draft = .ofGlobal global

theorem between_start : start.Between :=
  ⟨rfl, .inl rfl, .empty, rfl⟩

namespace Between

variable {scan : Scan} (h : scan.Between)

include h

theorem isFree : scan.isFree = true := by
  rw [Scan.isFree, h.plainOnly]
  rcases h.pending with hPending | ⟨_, _, _, hPending⟩ <;> rw [hPending] <;> rfl

theorem exists_close : ∃ global? : Except UsageError GlobalOptions,
    scan.close = global?.map Draft.ofGlobal := by
  obtain ⟨global, hDraft⟩ := h.draft
  rw [close, hDraft]
  rcases h.pending with hPending | ⟨option, hOption, text, hPending⟩
  · exact ⟨.ok global, by rw [hPending]; rfl⟩
  · obtain ⟨global?, hGive⟩ := Draft.exists_give_ofGlobal global hOption text
    exact ⟨global?, by rw [hPending]; exact hGive⟩

theorem exists_draft_of_close {draft : Draft} (hClose : scan.close = .ok draft) :
    ∃ global, draft = .ofGlobal global := by
  obtain ⟨global?, hGlobal⟩ := h.exists_close
  rw [hGlobal] at hClose
  cases global? with
  | error error => cases hClose
  | ok global =>
    cases hClose
    exact ⟨global, rfl⟩

/-- What closes the scan and then adds to its global options leaves nothing else behind. -/
theorem between_of_close_bind (add : Draft → Except UsageError Draft)
    (hAdd : ∀ global, ∃ global? : Except UsageError GlobalOptions,
      add (.ofGlobal global) = global?.map Draft.ofGlobal) {scan' : Scan}
    (hScan : (do return { scan with draft := ← add (← scan.close), pending := .nothing }) =
      Except.ok scan') : scan'.Between := by
  obtain ⟨closed?, hClose⟩ := h.exists_close
  rw [hClose] at hScan
  cases closed? with
  | error error => cases hScan
  | ok closed =>
    obtain ⟨global?, hGlobal⟩ := hAdd closed
    change (add (.ofGlobal closed) >>= fun draft => _) = _ at hScan
    rw [hGlobal] at hScan
    cases global? with
    | error error => cases hScan
    | ok global =>
      cases hScan
      exact ⟨h.plainOnly, .inl rfl, global, rfl⟩

theorem flag {option : OptionName} (hOption : option ∈ Grammar.globals) {scan' : Scan}
    (hScan : scan.flag option = .ok scan') : scan'.Between :=
  h.between_of_close_bind (·.flag option)
    (fun global => Draft.exists_flag_ofGlobal global hOption) hScan

theorem give {option : OptionName} (hOption : option ∈ Grammar.globals) {text : String}
    {scan' : Scan} (hScan : scan.give option text = .ok scan') : scan'.Between :=
  h.between_of_close_bind (·.give option text)
    (fun global => Draft.exists_give_ofGlobal global hOption text) hScan

theorem await {option : OptionName} (hOption : option ∈ Grammar.globals) (text : String)
    {scan' : Scan} (hScan : scan.await option = .ok scan') :
    scan'.plainOnly = false ∧ scan'.pending = .awaiting option ∧
      ({ scan' with pending := .value option text } : Scan).Between := by
  obtain ⟨closed?, hClose⟩ := h.exists_close
  rw [Scan.await, hClose] at hScan
  cases closed? with
  | error error => cases hScan
  | ok closed =>
    cases hScan
    exact ⟨h.plainOnly, rfl, h.plainOnly, .inr ⟨option, hOption, text, rfl⟩, closed, rfl⟩

end Between

theorem blames_flag (scan : Scan) {option : OptionName} (h : option ∈ Grammar.globals) :
    Blames (scan.flag option) :=
  scan.blames_close.bind fun draft => (draft.blames_flag h).bind fun _ => .ok _

theorem blames_give (scan : Scan) (option : OptionName) (text : String) :
    Blames (scan.give option text) :=
  scan.blames_close.bind fun draft => (draft.blames_give option text).bind fun _ => .ok _

theorem blames_await (scan : Scan) (option : OptionName) : Blames (scan.await option) :=
  scan.blames_close.bind fun _ => .ok _

/-- The value behind a letter; an `=` between them is not part of it. -/
def valueBehind (first : Char) (others : List Char) : String :=
  String.ofList (if first = '=' then others else first :: others)

theorem cluster_cons_cons {grammar : Grammar} {letter : Char} {option : OptionName}
    (hLetter : grammar.short? letter = some option) (hTakes : option.takesValue = true)
    (scan : Scan) (first : Char) (others : List Char) :
    scan.cluster grammar (letter :: first :: others) =
      scan.give option (valueBehind first others) := by
  simp only [cluster, hLetter, hTakes, if_true, valueBehind]
  split
  · cases ‹_ = _›
  · next hRest =>
    obtain ⟨rfl, rfl⟩ := List.cons.inj hRest
    rw [if_pos rfl]
  · next hRest =>
    rw [if_neg]
    rintro rfl
    exact hRest others rfl

section Steps

variable {grammar : Grammar} (hGrammar : grammar.KnowsGlobals) {scan : Scan}
  (hPlain : scan.plainOnly = false) {option : OptionName} (hOption : option ∈ Grammar.globals)
  {word : String}

include hGrammar hPlain hOption

theorem step_flag (hTakes : option.takesValue = false)
    (hWord : Word.ofString word = .long option.long none) :
    scan.step grammar word = scan.flag option := by
  rw [step, hPlain, if_neg Bool.false_ne_true, hWord]
  simp only [long, hGrammar.long? option hOption, hTakes, Bool.false_eq_true, if_false]

theorem step_long {value : String} (hTakes : option.takesValue = true)
    (hWord : Word.ofString word = .long option.long (some value)) :
    scan.step grammar word = scan.give option value := by
  rw [step, hPlain, if_neg Bool.false_ne_true, hWord]
  simp only [long, hGrammar.long? option hOption, hTakes, if_true]

theorem step_apart (hTakes : option.takesValue = true)
    (hWord : Word.ofString word = .long option.long none ∨
      ∃ letter, option.short? = some letter ∧ Word.ofString word = .cluster [letter]) :
    scan.step grammar word = scan.await option := by
  rw [step, hPlain, if_neg Bool.false_ne_true]
  rcases hWord with hWord | ⟨letter, hLetter, hWord⟩
  · simp only [hWord, long, hGrammar.long? option hOption, hTakes, if_true]
  · simp only [hWord, cluster, hGrammar.short? option hOption letter hLetter, hTakes, if_true]

theorem step_short {letter first : Char} {others : List Char}
    (hLetter : option.short? = some letter)
    (hWord : Word.ofString word = .cluster (letter :: first :: others)) :
    scan.step grammar word = scan.give option (valueBehind first others) := by
  have hTakes := Grammar.takesValue_of_short? option hOption (by rw [hLetter]; rfl)
  rw [step, hPlain, if_neg Bool.false_ne_true, hWord]
  exact scan.cluster_cons_cons (hGrammar.short? option hOption letter hLetter) hTakes first others

end Steps

end Scan

namespace Arguments

theorem ofString_of_startsCommand {word : String} (h : startsCommand word = true) :
    (∃ text, Word.ofString word = .plain text) ∨ Word.ofString word = .cluster ['v'] := by
  rw [startsCommand, Bool.or_eq_true, beq_iff_eq, CommandName.ofWord?, List.find?_isSome] at h
  rcases h with rfl | ⟨name, _, hName⟩
  · exact .inl ⟨"help", rfl⟩
  · cases name with
    | version =>
      obtain rfl | rfl : word = "version" ∨ word = "-v" := by simpa [CommandName.words] using hName
      · exact .inl ⟨"version", rfl⟩
      · exact .inr rfl
    | _ =>
      obtain rfl : word = _ := by simpa [CommandName.words] using hName
      exact .inl ⟨_, rfl⟩

/-- The words are read alike by all grammars that know the global options, and in front of a
command. -/
structure Reads (scan : Scan) (words : List String) (result : Except UsageError Scan) : Prop where
  grammar : ∀ grammar : Grammar, grammar.KnowsGlobals →
    words.foldlM (Scan.step grammar) scan = result
  command : ∀ rest, readFrom scan (words ++ rest) = result >>= (readFrom · rest)
  blames : Blames result
  between : ∀ scan', result = .ok scan' → scan'.Between

/-- No command is named by such a word. -/
def IsOption (word : String) : Prop :=
  (∃ name value, Word.ofString word = .long name value) ∨
    ∃ letters, Word.ofString word = .cluster letters ∧ letters ≠ ['v']

theorem readFrom_option {scan : Scan} (h : scan.Between) {word : String} (hWord : IsOption word)
    (rest : List String) :
    readFrom scan (word :: rest) = scan.step .program word >>= (readFrom · rest) := by
  have hCommand : startsCommand word = false := by
    rw [Bool.eq_false_iff]
    intro hStarts
    rcases ofString_of_startsCommand hStarts with ⟨text, hPlain⟩ | hLetter
    · rcases hWord with ⟨name, value, hWord⟩ | ⟨letters, hWord, _⟩ <;>
        · rw [hWord] at hPlain
          cases hPlain
    · rcases hWord with ⟨name, value, hWord⟩ | ⟨letters, hWord, hLetters⟩
      · rw [hWord] at hLetter
        cases hLetter
      · rw [hWord] at hLetter
        exact hLetters (Word.cluster.inj hLetter)
  have hStray : isStray scan word = false := by
    rw [isStray, h.plainOnly]
    rcases hWord with ⟨name, value, hWord⟩ | ⟨letters, hWord, _⟩ <;> rw [hWord]
  rw [readFrom, hCommand, hStray]
  simp

theorem reads_singleton {scan : Scan} (h : scan.Between) {word : String} (hWord : IsOption word)
    {result : Except UsageError Scan}
    (hStep : ∀ grammar : Grammar, grammar.KnowsGlobals → scan.step grammar word = result)
    (hBlames : Blames result) (hBetween : ∀ scan', result = .ok scan' → scan'.Between) :
    Reads scan [word] result where
  grammar grammar hGrammar := by
    rw [List.foldlM_cons, hStep grammar hGrammar]
    exact bind_pure _
  command rest := by
    rw [List.singleton_append, readFrom_option h hWord, hStep _ Grammar.knowsGlobals_program]
  blames := hBlames
  between := hBetween

theorem exists_reads_of_isGlobal {scan : Scan} (h : scan.Between) {words : List String}
    (hWords : IsGlobal words) : ∃ result, Reads scan words result := by
  cases hWords with
  | @flag word option hOption hTakes hWord =>
    exact ⟨scan.flag option, reads_singleton h (.inl ⟨_, _, hWord⟩)
      (fun _ hGrammar => Scan.step_flag hGrammar h.plainOnly hOption hTakes hWord)
      (scan.blames_flag hOption) fun _ => h.flag hOption⟩
  | @long word value option hOption hTakes hWord =>
    exact ⟨scan.give option value, reads_singleton h (.inl ⟨_, _, hWord⟩)
      (fun _ hGrammar => Scan.step_long hGrammar h.plainOnly hOption hTakes hWord)
      (scan.blames_give option value) fun _ => h.give hOption⟩
  | @short word letter first others option hOption hLetter hWord =>
    let value := Scan.valueBehind first others
    exact ⟨scan.give option value, reads_singleton h (.inr ⟨_, hWord, by simp⟩)
      (fun _ hGrammar => Scan.step_short hGrammar h.plainOnly hOption hLetter hWord)
      (scan.blames_give option value) fun _ => h.give hOption⟩
  | @apart word value text option hOption hTakes hWord hValue =>
    have hValueStep (grammar : Grammar) (scan' : Scan) (hAwait : scan.await option = .ok scan') :
        scan'.step grammar value = .ok { scan' with pending := .value option text } := by
      obtain ⟨hPlain, hPending, _⟩ := h.await hOption text hAwait
      rw [Scan.step, hPlain, if_neg Bool.false_ne_true, hValue, hPending]
    refine ⟨scan.await option >>= fun scan' => .ok { scan' with pending := .value option text },
      ?_, ?_, (scan.blames_await option).bind fun _ => .ok _, ?_⟩
    · intro grammar hGrammar
      rw [List.foldlM_cons, Scan.step_apart hGrammar h.plainOnly hOption hTakes hWord]
      cases hAwait : scan.await option with
      | error error => rfl
      | ok scan' =>
        change [value].foldlM (Scan.step grammar) scan' = _
        rw [List.foldlM_cons, hValueStep grammar scan' hAwait]
        rfl
    · intro rest
      have hOptionWord : IsOption word := by
        rcases hWord with hWord | ⟨letter, hLetter, hWord⟩
        · exact .inl ⟨_, _, hWord⟩
        · refine .inr ⟨_, hWord, ?_⟩
          rintro hLetters
          obtain rfl : letter = 'v' := by simpa using hLetters
          cases option <;> simp [OptionName.short?] at hLetter
      change readFrom scan (word :: value :: rest) = _
      rw [readFrom_option h hOptionWord,
        Scan.step_apart Grammar.knowsGlobals_program h.plainOnly hOption hTakes hWord]
      cases hAwait : scan.await option with
      | error error => rfl
      | ok scan' =>
        obtain ⟨hPlain, hPending, _⟩ := h.await hOption text hAwait
        have hFree : scan'.isFree = false := by rw [Scan.isFree, hPlain, hPending]; rfl
        have hStray : isStray scan' value = false := by rw [isStray, hValue, hPlain, hFree]; rfl
        change readFrom scan' (value :: rest) = readFrom _ rest
        rw [readFrom, hFree, hStray, hValueStep .program scan' hAwait]
        rfl
    · intro scan' hScan
      cases hAwait : scan.await option with
      | error error => rw [hAwait] at hScan; cases hScan
      | ok awaiting =>
        rw [hAwait] at hScan
        cases hScan
        exact (h.await hOption text hAwait).2.2

theorem exists_reads {scan : Scan} (h : scan.Between) {options : List (List String)}
    (hOptions : ∀ words ∈ options, IsGlobal words) :
    ∃ result, Reads scan options.flatten result := by
  induction options generalizing scan with
  | nil =>
    refine ⟨.ok scan, fun _ _ => rfl, fun rest => rfl, .ok scan, ?_⟩
    rintro _ ⟨⟩
    exact h
  | cons words options ih =>
    rw [List.forall_mem_cons] at hOptions
    obtain ⟨first?, hFirst⟩ := exists_reads_of_isGlobal h hOptions.1
    cases first? with
    | error error =>
      refine ⟨.error error, fun grammar hGrammar => ?_, fun rest => ?_, hFirst.blames, ?_⟩
      · rw [List.flatten_cons, List.foldlM_append, hFirst.grammar grammar hGrammar]
        rfl
      · rw [List.flatten_cons, List.append_assoc, hFirst.command]
        rfl
      · rintro _ ⟨⟩
    | ok first =>
      obtain ⟨result, hRest⟩ := ih (hFirst.between first rfl) hOptions.2
      refine ⟨result, fun grammar hGrammar => ?_, fun rest => ?_, hRest.blames, hRest.between⟩
      · rw [List.flatten_cons, List.foldlM_append, hFirst.grammar grammar hGrammar]
        exact hRest.grammar grammar hGrammar
      · rw [List.flatten_cons, List.append_assoc, hFirst.command]
        exact hRest.command rest

end Arguments

end HeaderRename
