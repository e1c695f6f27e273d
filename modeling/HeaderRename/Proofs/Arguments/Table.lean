import HeaderRename.Proofs.Arguments.Globals

/-!
# The words of one table behind global options

Roots and the pattern are read alike with and without the global options. Where both stand in one
command line, the first word of the table that needs it closes what the global options left open, so
the two parts can be read apart, and only which of two wrong words is blamed depends on the order.
-/
set_option autoImplicit false

namespace HeaderRename

namespace Arguments

/-- A root, the pattern option with or without its value, or the end of the options. -/
def IsOfTable : Word → Prop
  | .plain _ => True
  | .endOfOptions => True
  | .long name _ => name = OptionName.pattern.long
  | .cluster letters => ∃ others, letters = 'p' :: others

/-- Behind the end of the options all words are roots. -/
def AreOfTable : List String → Prop
  | [] => True
  | word :: rest =>
    IsOfTable (Word.ofString word) ∧ (Word.ofString word = .endOfOptions ∨ AreOfTable rest)

end Arguments

namespace Draft

def withGlobal (draft : Draft) (global : GlobalOptions) : Draft :=
  { draft with global }

theorem give_withGlobal (draft : Draft) (global : GlobalOptions) (text : String) :
    (draft.withGlobal global).give .pattern text =
      (draft.give .pattern text).map (·.withGlobal global) := by
  rw [give, give, withGlobal]
  cases once draft.tool.pattern (.ok text) <;> rfl

theorem addRoots_withGlobal (draft : Draft) (global : GlobalOptions) (roots : List String) :
    (draft.withGlobal global).addRoots roots =
      (draft.addRoots roots).map (·.withGlobal global) := by
  rw [addRoots, addRoots]
  split <;> rfl

end Draft

/-- Only words of a table are open. -/
def Pending.IsOfTable : Pending → Prop
  | .nothing => True
  | .awaiting option => option = .pattern
  | .value option _ => option = .pattern
  | .roots _ => True
  | .table _ => False

/-- What a word of a table does, whatever grammar reads it: a root, a plain word, which may be the
value that an option waits for, the end of the options, or the pattern with or without a value. -/
inductive Move where
  | root (text : String)
  | plain (text : String)
  | endOptions
  | give (text : String)
  | await
deriving DecidableEq

namespace Scan

open Arguments (IsOfTable AreOfTable)

def addRoot (scan : Scan) (text : String) : Except UsageError Scan :=
  match scan.pending with
  | .roots paths => .ok { scan with pending := .roots (paths ++ [text]) }
  | _ => do return { scan with draft := ← scan.close, pending := .roots [text] }

def move (scan : Scan) : Move → Except UsageError Scan
  | .root text => scan.addRoot text
  | .plain text =>
    match scan.pending with
    | .awaiting option => .ok { scan with pending := .value option text }
    | _ => scan.addRoot text
  | .endOptions => .ok { scan with plainOnly := true }
  | .give text => scan.give .pattern text
  | .await => scan.await .pattern

/-- The grammars of the words of a table, alone and with the global options. -/
def grammars : List Grammar :=
  [.tool, .standalone]

theorem operand_eq_addRoot {grammar : Grammar} (h : grammar ∈ grammars) (scan : Scan)
    (text : String) : scan.operand grammar text = scan.addRoot text := by
  have hOperand : grammar.operand = some .roots := by
    revert grammar
    decide
  rw [operand, addRoot, hOperand]
  cases scan.pending <;> rfl

theorem exists_step_eq_move (plainOnly : Bool) (word : String)
    (h : plainOnly = true ∨ IsOfTable (Word.ofString word)) :
    ∃ m, (m = .endOptions ↔ plainOnly = false ∧ Word.ofString word = .endOfOptions) ∧
      ∀ grammar ∈ grammars, ∀ scan : Scan, scan.plainOnly = plainOnly →
        scan.step grammar word = scan.move m := by
  cases plainOnly with
  | true =>
    refine ⟨.root word, by simp, fun grammar hGrammar scan hPlain => ?_⟩
    rw [step, if_pos hPlain, operand_eq_addRoot hGrammar]
    rfl
  | false =>
    have hWord := h.resolve_left Bool.false_ne_true
    cases hKind : Word.ofString word with
    | plain text =>
      refine ⟨.plain text, by simp, ?_⟩
      rintro grammar hGrammar ⟨draft, pending, _⟩ rfl
      rw [step, if_neg Bool.false_ne_true, hKind]
      cases pending <;> first | rfl | exact operand_eq_addRoot hGrammar _ text
    | endOfOptions =>
      refine ⟨.endOptions, by simp, ?_⟩
      rintro grammar hGrammar ⟨draft, pending, _⟩ rfl
      rw [step, if_neg Bool.false_ne_true, hKind]
      rfl
    | long name value =>
      rw [hKind] at hWord
      obtain rfl : name = OptionName.pattern.long := hWord
      have hLong : ∀ grammar ∈ grammars,
          grammar.long? OptionName.pattern.long = some .pattern := by decide
      refine ⟨value.elim .await .give, by cases value <;> simp, ?_⟩
      rintro grammar hGrammar ⟨draft, pending, _⟩ rfl
      rw [step, if_neg Bool.false_ne_true, hKind]
      simp only [long, hLong grammar hGrammar]
      cases value <;> rfl
    | cluster letters =>
      rw [hKind] at hWord
      obtain ⟨others, rfl⟩ := hWord
      have hShort : ∀ grammar ∈ grammars, grammar.short? 'p' = some .pattern := by decide
      cases others with
      | nil =>
        refine ⟨.await, by simp, ?_⟩
        rintro grammar hGrammar ⟨draft, pending, _⟩ rfl
        rw [step, if_neg Bool.false_ne_true, hKind]
        simp only [cluster, hShort grammar hGrammar]
        rfl
      | cons first others =>
        refine ⟨.give (valueBehind first others), by simp, ?_⟩
        rintro grammar hGrammar ⟨draft, pending, _⟩ rfl
        rw [step, if_neg Bool.false_ne_true, hKind]
        exact cluster_cons_cons (hShort grammar hGrammar) rfl _ first others

theorem exists_of_bind_eq_ok {α β : Type} {x : Except UsageError α} {f : α → Except UsageError β}
    {b : β} (h : (x >>= f) = .ok b) : ∃ a, x = .ok a ∧ f a = .ok b := by
  cases x with
  | error error => cases h
  | ok a => exact ⟨a, rfl, h⟩

theorem plainOnly_of_addRoot {scan scan' : Scan} {text : String}
    (h : scan.addRoot text = .ok scan') : scan'.plainOnly = scan.plainOnly := by
  rw [addRoot] at h
  split at h
  · cases h
    rfl
  · obtain ⟨draft, _, hScan⟩ := exists_of_bind_eq_ok h
    cases hScan
    rfl

theorem plainOnly_of_move {scan scan' : Scan} {m : Move} (h : scan.move m = .ok scan') :
    scan'.plainOnly = (scan.plainOnly || m == .endOptions) := by
  by_cases hEnd : m = .endOptions
  · subst hEnd
    cases h
    simp
  · have hSame : scan'.plainOnly = scan.plainOnly := by
      cases m with
      | root text => exact plainOnly_of_addRoot h
      | plain text =>
        rw [move] at h
        split at h
        · cases h
          rfl
        · exact plainOnly_of_addRoot h
      | endOptions => exact absurd rfl hEnd
      | give text =>
        obtain ⟨draft, _, hGive⟩ := exists_of_bind_eq_ok h
        obtain ⟨draft', _, hScan⟩ := exists_of_bind_eq_ok hGive
        cases hScan
        rfl
      | await =>
        obtain ⟨draft, _, hScan⟩ := exists_of_bind_eq_ok h
        cases hScan
        rfl
    rw [hSame, beq_false_of_ne hEnd, Bool.or_false]

def moveAll (scan : Scan) (moves : List Move) : Except UsageError Scan :=
  moves.foldlM move scan

theorem moveAll_cons (scan : Scan) (m : Move) (moves : List Move) :
    scan.moveAll (m :: moves) = scan.move m >>= (moveAll · moves) := rfl

/-- Words of a table do the same in both grammars and to every scan. -/
theorem exists_foldlM_eq_moveAll (plainOnly : Bool) (words : List String)
    (h : plainOnly = true ∨ AreOfTable words) :
    ∃ moves, ∀ grammar ∈ grammars, ∀ scan : Scan, scan.plainOnly = plainOnly →
      words.foldlM (step grammar) scan = scan.moveAll moves := by
  induction words generalizing plainOnly with
  | nil => exact ⟨[], fun _ _ _ _ => rfl⟩
  | cons word words ih =>
    obtain ⟨m, hEnd, hStep⟩ := exists_step_eq_move plainOnly word (h.imp_right And.left)
    have hRest : (plainOnly || m == .endOptions) = true ∨ AreOfTable words := by
      rcases h with rfl | ⟨_, hKind | hWords⟩
      · exact .inl rfl
      · cases plainOnly with
        | true => exact .inl rfl
        | false => exact .inl (by rw [hEnd.mpr ⟨rfl, hKind⟩]; rfl)
      · exact .inr hWords
    obtain ⟨moves, hMoves⟩ := ih _ hRest
    refine ⟨m :: moves, fun grammar hGrammar scan hPlain => ?_⟩
    rw [List.foldlM_cons, hStep grammar hGrammar scan hPlain, moveAll_cons]
    cases hMove : scan.move m with
    | error error => rfl
    | ok scan' =>
      exact hMoves grammar hGrammar scan' (by rw [plainOnly_of_move hMove, hPlain])

/-- The scan with nothing open. -/
def settled (scan : Scan) (draft : Draft) : Scan :=
  { scan with draft, pending := .nothing }

theorem move_eq_close_bind {scan : Scan} {option : OptionName} {value : String}
    (hPending : scan.pending = .value option value) {m : Move} (h : m ≠ .endOptions) :
    scan.move m = scan.close >>= fun draft => (scan.settled draft).move m := by
  have hRoot (text : String) : scan.addRoot text =
      scan.close >>= fun draft => (scan.settled draft).addRoot text := by
    rw [addRoot, hPending]
    rfl
  cases m with
  | root text => exact hRoot text
  | plain text =>
    rw [move, hPending]
    exact hRoot text
  | endOptions => exact absurd rfl h
  | give | await => rfl

theorem moveAll_bind_close {scan : Scan} {option : OptionName} {value : String}
    (hPending : scan.pending = .value option value) (moves : List Move) :
    (scan.moveAll moves >>= close) =
      scan.close >>= fun draft => (scan.settled draft).moveAll moves >>= close := by
  induction moves generalizing scan with
  | nil => exact (bind_pure _).symm
  | cons m moves ih =>
    by_cases hEnd : m = .endOptions
    · -- the end of the options leaves open what is
      subst hEnd
      exact @ih { scan with plainOnly := true } hPending
    · rw [moveAll_cons, move_eq_close_bind hPending hEnd, bind_assoc, bind_assoc]
      simp only [moveAll_cons, bind_assoc]

def withGlobal (scan : Scan) (global : GlobalOptions) : Scan :=
  { scan with draft := scan.draft.withGlobal global }

theorem close_withGlobal {scan : Scan} (h : scan.pending.IsOfTable) (global : GlobalOptions) :
    (scan.withGlobal global).close = scan.close.map (·.withGlobal global) := by
  obtain ⟨draft, pending, plainOnly⟩ := scan
  cases pending with
  | nothing | awaiting option => rfl
  | value option text =>
    obtain rfl : option = .pattern := h
    exact draft.give_withGlobal global text
  | roots paths => exact draft.addRoots_withGlobal global paths
  | table name => exact h.elim

theorem addRoot_withGlobal {scan : Scan} (h : scan.pending.IsOfTable) (global : GlobalOptions)
    (text : String) :
    (scan.withGlobal global).addRoot text = (scan.addRoot text).map (·.withGlobal global) := by
  have hClose := close_withGlobal h global
  obtain ⟨draft, pending, plainOnly⟩ := scan
  cases pending with
  | roots paths => rfl
  | table name => exact h.elim
  | _ =>
    simp only [addRoot, withGlobal] at hClose ⊢
    rw [hClose]
    cases close _ <;> rfl

theorem move_withGlobal {scan : Scan} (h : scan.pending.IsOfTable) (global : GlobalOptions)
    (m : Move) : (scan.withGlobal global).move m = (scan.move m).map (·.withGlobal global) := by
  have hRoot := addRoot_withGlobal h global
  have hClose := close_withGlobal h global
  cases m with
  | root text => exact hRoot text
  | plain text =>
    obtain ⟨draft, pending, plainOnly⟩ := scan
    cases pending with
    | awaiting option => rfl
    | _ => exact hRoot text
  | endOptions => rfl
  | give text =>
    rw [move, Scan.give, hClose, move, Scan.give]
    cases scan.close with
    | error error => rfl
    | ok draft =>
      change ((draft.withGlobal global).give .pattern text >>= fun draft => _) =
        (draft.give .pattern text >>= fun draft => _).map _
      rw [draft.give_withGlobal]
      cases draft.give .pattern text <;> rfl
  | await =>
    rw [move, Scan.await, hClose, move, Scan.await]
    cases scan.close <;> rfl

theorem isOfTable_of_addRoot {scan scan' : Scan} {text : String}
    (h : scan.addRoot text = .ok scan') : scan'.pending.IsOfTable := by
  rw [addRoot] at h
  split at h
  · cases h
    trivial
  · obtain ⟨draft, _, hScan⟩ := exists_of_bind_eq_ok h
    cases hScan
    trivial

theorem isOfTable_of_move {scan scan' : Scan} (hPending : scan.pending.IsOfTable) {m : Move}
    (h : scan.move m = .ok scan') : scan'.pending.IsOfTable := by
  cases m with
  | root text => exact isOfTable_of_addRoot h
  | plain text =>
    rw [move] at h
    split at h
    · next option hAwaiting =>
      cases h
      rwa [hAwaiting] at hPending
    · exact isOfTable_of_addRoot h
  | endOptions =>
    cases h
    exact hPending
  | give text =>
    obtain ⟨draft, _, hGive⟩ := exists_of_bind_eq_ok h
    obtain ⟨draft', _, hScan⟩ := exists_of_bind_eq_ok hGive
    cases hScan
    trivial
  | await =>
    obtain ⟨draft, _, hScan⟩ := exists_of_bind_eq_ok h
    cases hScan
    rfl

theorem moveAll_withGlobal_bind_close {scan : Scan} (h : scan.pending.IsOfTable)
    (global : GlobalOptions) (moves : List Move) :
    ((scan.withGlobal global).moveAll moves >>= close) =
      (scan.moveAll moves >>= close).map (·.withGlobal global) := by
  induction moves generalizing scan with
  | nil => exact close_withGlobal h global
  | cons m moves ih =>
    rw [moveAll_cons, moveAll_cons, move_withGlobal h]
    cases hMove : scan.move m with
    | error error => rfl
    | ok scan' => exact ih (isOfTable_of_move h hMove)

theorem blames_addRoot (scan : Scan) (text : String) : Blames (scan.addRoot text) := by
  rw [addRoot]
  split
  · exact .ok _
  · exact scan.blames_close.bind fun _ => .ok _

theorem blames_move (scan : Scan) (m : Move) : Blames (scan.move m) := by
  cases m with
  | root text => exact scan.blames_addRoot text
  | plain text =>
    rw [move]
    split
    · exact .ok _
    · exact scan.blames_addRoot text
  | endOptions => exact .ok _
  | give text => exact scan.blames_give .pattern text
  | await => exact scan.blames_await .pattern

theorem blames_moveAll (scan : Scan) (moves : List Move) : Blames (scan.moveAll moves) := by
  induction moves generalizing scan with
  | nil => exact .ok scan
  | cons m moves ih => exact (scan.blames_move m).bind ih

theorem Between.moveAll_bind_close {scan : Scan} (h : scan.Between) (moves : List Move) :
    (scan.moveAll moves >>= close) = scan.close >>= fun draft =>
      (start.withGlobal draft.global).moveAll moves >>= close := by
  have hPlain := h.plainOnly
  rcases h.pending with hPending | ⟨option, _, text, hPending⟩
  · obtain ⟨global, hDraft⟩ := h.draft
    obtain ⟨draft, pending, plainOnly⟩ := scan
    subst hDraft hPending hPlain
    rfl
  · rw [Scan.moveAll_bind_close hPending]
    cases hClose : scan.close with
    | error error => rfl
    | ok draft =>
      obtain ⟨global, rfl⟩ := h.exists_draft_of_close hClose
      change (settled scan _).moveAll moves >>= close = _
      rw [settled, hPlain]
      rfl

end Scan

/-- Two readings give the same, or both blame a word. -/
structure Agree {α : Type} (x y : Except UsageError α) : Prop where
  toOption : x.toOption = y.toOption
  left : Blames x
  right : Blames y

namespace Arguments

open Scan

theorem readFrom_command {scan : Scan} (h : scan.Between) {word : String} {name : CommandName}
    (hName : CommandName.ofWord? word = some name) (words : List String) :
    readFrom scan (word :: words) = (do
      let command ← name.read words
      return ⟨(← scan.close).global, some command⟩) := by
  have hStarts : startsCommand word = true := by rw [startsCommand, hName]; simp
  rw [readFrom, h.isFree, hStarts]
  simp only [Bool.and_self, if_true, hName]

/-- What the words of a table say is read in the same way behind global options and behind a
command that runs a table, which stands behind the global options. -/
theorem agree_read {options : List (List String)} (hOptions : ∀ words ∈ options, IsGlobal words)
    {words : List String} (hWords : AreOfTable words) {word : String} {name : CommandName}
    (hName : CommandName.ofWord? word = some name) (hTool : name.grammar = .tool) :
    Agree
      ((Scan.readAll .standalone (options.flatten ++ words)).map fun draft =>
        (⟨draft.global, some (name.command draft)⟩ : Arguments))
      (read (options.flatten ++ word :: words)) := by
  obtain ⟨scanned?, hReads⟩ := exists_reads between_start hOptions
  obtain ⟨moves, hMoves⟩ := exists_foldlM_eq_moveAll false words (.inr hWords)
  let table? := start.moveAll moves >>= close
  have hTable : Scan.readAll .tool words = table? := by
    rw [Scan.readAll, hMoves .tool (by decide) start rfl]
  have hBlames : Blames table? := (start.blames_moveAll moves).bind blames_close
  rw [read, hReads.command, Scan.readAll, List.foldlM_append,
    hReads.grammar _ Grammar.knowsGlobals_standalone]
  cases hScanned : scanned? with
  | error error =>
    have hError : ¬error.IsRequest := hReads.blames error hScanned
    exact ⟨rfl, .error hError, .error hError⟩
  | ok scan =>
    have hBetween := hReads.between scan hScanned
    -- without the command the global options are closed first, with it the table is read first
    have hAlone : (words.foldlM (step .standalone) scan >>= close) =
        scan.close >>= fun draft => table?.map (·.withGlobal draft.global) := by
      rw [hMoves .standalone (by decide) scan hBetween.plainOnly, hBetween.moveAll_bind_close]
      have hStart : start.pending.IsOfTable := trivial
      exact congrArg _ (funext fun draft =>
        moveAll_withGlobal_bind_close hStart draft.global moves)
    have hCommand : readFrom scan (word :: words) =
        table? >>= fun table => scan.close >>= fun draft =>
          .ok ⟨draft.global, some (name.command table)⟩ := by
      rw [readFrom_command hBetween hName, CommandName.read, hTool, hTable]
      cases table? <;> rfl
    have hSame (draft : Draft) (global : GlobalOptions) :
        name.command (draft.withGlobal global) = name.command draft := by
      cases name <;> rfl
    change Agree ((words.foldlM (step .standalone) scan >>= close).map _) (readFrom scan _)
    rw [hAlone, hCommand]
    cases hClose : scan.close with
    | error error =>
      have hError : ¬error.IsRequest := scan.blames_close error hClose
      refine ⟨?_, .error hError, hBlames.bind fun _ => .error hError⟩
      cases table? <;> rfl
    | ok draft =>
      refine ⟨?_, ((Blames.ok draft).bind fun _ => hBlames.map _).map _,
        hBlames.bind fun _ => .ok _⟩
      cases table? with
      | error error => rfl
      | ok table =>
        change some (Arguments.mk draft.global (some (name.command (table.withGlobal _)))) = _
        rw [hSame]
        rfl

end Arguments

end HeaderRename
