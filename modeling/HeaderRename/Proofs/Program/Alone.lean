import HeaderRename.Program.Run
import HeaderRename.Proofs.Arguments.Table

/-!
# Programs of one table

A program that runs one table does what the full program does with the command for this table: with
the same global options and the same words for the table the two end with the same code, print the
same and leave the same files, whether the run succeeds or fails on the way. Only what they say of a
wrong command line may differ.
-/
set_option autoImplicit false

namespace HeaderRename

/-- Nothing but the report of a wrong command line tells the two apart. -/
structure Outcome.Same (outcome outcome' : Outcome) : Prop where
  code : outcome.code = outcome'.code
  output : outcome.output = outcome'.output
  disk : outcome.disk = outcome'.disk
  errors : outcome.code ≠ 2 → outcome.errors = outcome'.errors

namespace Program

variable (host : Host)

theorem answerUsage_of_not_isRequest (program : Program) {error : UsageError}
    (h : ¬error.IsRequest) :
    program.answerUsage host error = ⟨2, [], [error.message, program.usage], host.disk⟩ := by
  cases error with
  | displayHelp => exact absurd (.inl rfl) h
  | displayVersion => exact absurd (.inr rfl) h
  | _ => rfl

theorem same_run_of_agree {program program' : Program} {words words' : List String}
    (h : Agree (program.read words) (program'.read words')) :
    (program.run host words).Same (program'.run host words') := by
  obtain ⟨hRead, hBlames, hBlames'⟩ := h
  rw [run, run]
  cases hWords : program.read words with
  | error error =>
    cases hWords' : program'.read words' with
    | error error' =>
      simp only [answerUsage_of_not_isRequest host _ (hBlames error hWords),
        answerUsage_of_not_isRequest host _ (hBlames' error' hWords')]
      exact ⟨rfl, rfl, rfl, fun hCode => absurd rfl hCode⟩
    | ok arguments =>
      rw [hWords, hWords'] at hRead
      cases hRead
  | ok arguments =>
    cases hWords' : program'.read words' with
    | error error =>
      rw [hWords, hWords'] at hRead
      cases hRead
    | ok arguments' =>
      rw [hWords, hWords'] at hRead
      cases hRead
      exact ⟨rfl, rfl, rfl, fun _ => rfl⟩

theorem read_limitsOnly (words : List String) :
    limitsOnly.read words = (Scan.readAll .standalone words).map fun draft =>
      ⟨draft.global, some (CommandName.fixLimits.command draft)⟩ := by
  rw [read, ToolArguments.read]
  cases Scan.readAll .standalone words <;> rfl

theorem read_libOnly (words : List String) :
    libOnly.read words = (Scan.readAll .standalone words).map fun draft =>
      ⟨draft.global, some (CommandName.updateIncludes.command draft)⟩ := by
  rw [read, ToolArguments.read]
  cases Scan.readAll .standalone words <;> rfl

open Arguments (IsGlobal AreOfTable)

/-- For all global options and all words of a table, on every host: each program of one table does
what the full program does with the command between the two parts. -/
theorem same_run_command (options : List (List String)) (words : List String)
    (hOptions : ∀ option ∈ options, IsGlobal option) (hWords : AreOfTable words) :
    (limitsOnly.run host (options.flatten ++ words)).Same
        (full.run host (options.flatten ++ "fix-limits" :: words)) ∧
      (libOnly.run host (options.flatten ++ words)).Same
        (full.run host (options.flatten ++ "update-includes" :: words)) := by
  have hLimits : CommandName.ofWord? "fix-limits" = some .fixLimits := by decide
  have hLib : CommandName.ofWord? "update-includes" = some .updateIncludes := by decide
  constructor
  · refine same_run_of_agree host ?_
    rw [read_limitsOnly]
    exact Arguments.agree_read hOptions hWords hLimits rfl
  · refine same_run_of_agree host ?_
    rw [read_libOnly]
    exact Arguments.agree_read hOptions hWords hLib rfl

/-- A source file that includes a header of either table. -/
def sourceHost : Host where
  disk :=
    { entries := [(["src"], .directory), (["src", "a.c"],
        .file (Utf8.write "#include \"limits.h\"\n#include \"lapi.h\"\n".toList))]
      nodup := by decide
      valid := by decide }
  vars := [("INCFIX_LIMITS__TO", "own.h")]
  executable := fun _ => false
  listing := Listing.refuse
  time := "now"

/-- Options in three forms, and the same root before and behind the end of the options: by either
program the file is rewritten once, and there is a log. -/
theorem same_run_command_sourceHost :
    let options := [["--log-file", "run.log"], ["-l4"], ["--set=discovery/backend=walk"]]
    let words := ["src", "-p", "*.c", "--", "src"]
    (∀ option ∈ options, IsGlobal option) ∧ AreOfTable words ∧
      (limitsOnly.run sourceHost (options.flatten ++ words)).Same
        (full.run sourceHost (options.flatten ++ "fix-limits" :: words)) ∧
      ((limitsOnly.run sourceHost (options.flatten ++ words)).code = 0 ∧
        (limitsOnly.run sourceHost (options.flatten ++ words)).output =
          ["Updating limits include in src/a.c"] ∧
        (limitsOnly.run sourceHost (options.flatten ++ words)).disk.get? ["src", "a.c"] =
          some (.file (Utf8.write "#include \"own.h\"\n#include \"lapi.h\"\n".toList))) ∧
      (libOnly.run sourceHost (options.flatten ++ words)).Same
        (full.run sourceHost (options.flatten ++ "update-includes" :: words)) ∧
      (libOnly.run sourceHost (options.flatten ++ words)).code = 0 ∧
      (libOnly.run sourceHost (options.flatten ++ words)).output =
        ["Updating includes in src/a.c"] ∧
      (libOnly.run sourceHost (options.flatten ++ words)).disk.get? ["src", "a.c"] =
        some (.file (Utf8.write "#include \"limits.h\"\n#include \"api.h\"\n".toList)) := by
  intro options words
  have hOptions : ∀ option ∈ options, IsGlobal option := by
    simp only [options, List.forall_mem_cons, List.not_mem_nil, false_imp_iff, implies_true,
      and_true]
    refine ⟨?_, ?_, ?_⟩
    · exact @IsGlobal.apart "--log-file" "run.log" "run.log" .logFile (by decide) rfl (.inl rfl) rfl
    · exact @IsGlobal.short "-l4" 'l' '4' [] .logLevel (by decide) rfl rfl
    · exact @IsGlobal.long "--set=discovery/backend=walk" "discovery/backend=walk" .set (by decide)
        rfl rfl
  have hWords : AreOfTable words :=
    ⟨trivial, .inr ⟨⟨[], rfl⟩, .inr ⟨trivial, .inr ⟨trivial, .inl rfl⟩⟩⟩⟩
  obtain ⟨hLimits, hLib⟩ := same_run_command sourceHost options words hOptions hWords
  refine ⟨hOptions, hWords, hLimits, ?_, hLib, ?_⟩
  · decide +kernel
  · decide +kernel

end Program

end HeaderRename
