import FilterSelect.CommandLine.Run
import FilterSelect.Proofs.Envelope
import FilterSelect.Proofs.Filter.Rules

/-!
# The command line and the service agree

The program compiles the text that it reads, and the service compiles the bytes of a body. For one
text and the same options they do the same: the program prints the statement that the service
executes, and where the service has none, the program fails with the service's message for
developers. Options that cannot be used stop the program before it reads a text.

* `execute_compile`: a compile command, once its configuration is loaded.
* `Request.readBytes_toUTF8`: a body is read as the text it encodes.
* `Outcome.Matches`: the program and the service agree on a text.
* `execute_compile_agrees`: what a compile command does, compared with the service.
-/

namespace FilterSelect

/-- A body is read as the text it encodes. -/
theorem Request.readBytes_toUTF8 (text : String) : readBytes text.toUTF8 = read text := by
  have hdecode : String.fromUTF8? text.toUTF8 = some text := dif_pos text.isValidUTF8
  rw [readBytes, hdecode]

theorem Compiler.ofOptions_of_usable {o : Options} (h : o.fault? = none) :
    ofOptions o = .ok ⟨o, h⟩ := by
  unfold ofOptions
  split
  · rfl
  · rename_i setting hfault
    rw [h] at hfault
    cases hfault

namespace CommandLine

section

variable {ε α : Type} {m : Type → Type} [Monad m]

theorem ofExcept_ok (x : α) : (ofExcept (.ok x : Except ε α) : ExceptT ε m α) = pure x := rfl

theorem ofExcept_error (e : ε) : (ofExcept (.error e : Except ε α) : ExceptT ε m α) = throw e := rfl

theorem run_ofExcept (x : Except ε α) : (ofExcept x : ExceptT ε m α).run = pure x := by
  cases x <;> rfl

end

/-! ## Compile commands -/

theorem compileLine_of_unreadable {c : Compiler} {prune : Bool} {text : String} {e : RequestError}
    (h : Request.read text = .error e) : compileLine c prune text = .error (.invalidRequest e) := by
  unfold compileLine
  rw [h]
  rfl

theorem compileLine_of_read {c : Compiler} {prune : Bool} {text : String} {r : Request}
    (h : Request.read text = .ok r) : compileLine c prune text =
      (c.compile (if prune then r.prune else r)).mapError Failure.uncompilable := by
  unfold compileLine
  rw [h]
  rfl

theorem compileLine_eq_ok_iff {c : Compiler} {prune : Bool} {text line : String} :
    compileLine c prune text = .ok line ↔ ∃ r, Request.read text = .ok r ∧
      c.compile (if prune then r.prune else r) = .ok line := by
  cases hread : Request.read text with
  | error e => simp [compileLine_of_unreadable hread]
  | ok r =>
    rw [compileLine_of_read hread]
    cases hcompile : c.compile (if prune then r.prune else r) <;>
      simp [Except.mapError, hcompile]

/-- The output of a program that succeeds is the line of its command. -/
theorem Outcome.printed_iff {result : Except Failure String} {line : String} :
    ((ofResult result).exitCode = 0 ∧ (ofResult result).output = line ++ "\n") ↔
      result = .ok line := by
  cases result with
  | error failure => simp [ofResult]
  | ok other => simp [ofResult]

section

variable {m : Type → Type} [Monad m] [LawfulMonad m] {s : Sources m} {arguments : List String}
  {file config : Option String} {prune : Bool} {options : Options}
  (harguments : Invocation.ofArguments? arguments = some ⟨.compile file prune, config⟩)
  (hconfig : loadConfig s config = pure options)
include harguments hconfig

/-- A compile command, once its configuration is loaded. -/
theorem execute_compile : execute s arguments = Outcome.ofResult <$> ExceptT.run (do
    let c ← ofExcept ((Compiler.ofOptions options).mapError Failure.unusableOption)
    let text ← loadText s file
    ofExcept (compileLine c prune text)) := by
  unfold execute Invocation.run
  rw [harguments]
  dsimp only
  rw [hconfig, pure_bind]

theorem execute_unusable {e : CompileError} (he : Compiler.ofOptions options = .error e) :
    execute s arguments = pure (.ofResult (.error (.unusableOption e))) := by
  rw [execute_compile harguments hconfig, he, Except.mapError, ofExcept_error, ExceptT.run_bind,
    ExceptT.run_throw, pure_bind, map_pure]

theorem execute_usable {c : Compiler} {text : String} (hc : Compiler.ofOptions options = .ok c)
    (htext : loadText s file = pure text) :
    execute s arguments = pure (.ofResult (compileLine c prune text)) := by
  rw [execute_compile harguments hconfig, hc, Except.mapError, ofExcept_ok, pure_bind, htext,
    pure_bind, run_ofExcept, map_pure]

end

/-! ## Agreement with the service -/

/-- What the program prints before the message of a stage, and what the service tells a user. -/
def stages : List (String × String) := [
  ("Invalid query request", invalidRequestMessage),
  ("Query could not be compiled", uncompilableMessage)]

/-- The program leaves behind what a service does that responds after the given statements: it
prints a statement if that is the only one, and else it fails with the message of the response for
developers behind the name of the stage. -/
structure Outcome.Matches (outcome : Outcome) (response : Response) (statements : List String) :
    Prop where
  printed : ∀ sql, (outcome.exitCode = 0 ∧ outcome.output = sql ++ "\n") ↔ statements = [sql]
  failed : (∀ sql, statements ≠ [sql]) → outcome.exitCode = 1 ∧ outcome.output = "" ∧
    ∃ stage userMessage devMessage, (stage, userMessage) ∈ stages ∧
      response.IsFailure userMessage devMessage ∧
      outcome.errors = "Error: " ++ stage ++ ": " ++ devMessage ++ "\n"

theorem matches_respond (c : Compiler) (answer : String → Except String (List Row))
    (text : String) : (Outcome.ofResult (compileLine c false text)).Matches
      (c.respond answer text.toUTF8) (c.statement? text.toUTF8).toList where
  printed sql := by
    rw [Outcome.printed_iff, compileLine_eq_ok_iff, Option.toList_eq_singleton_iff,
      Compiler.statement?_eq_some_iff, Request.readBytes_toUTF8]
    rfl
  failed hnone := by
    simp only [ne_eq, Option.toList_eq_singleton_iff] at hnone
    cases answers_respond c answer text.toUTF8 with
    | unreadable hread hx =>
      rw [Request.readBytes_toUTF8] at hread
      rw [compileLine_of_unreadable hread]
      exact ⟨rfl, rfl, _, _, _, List.mem_cons_self, hx, rfl⟩
    | uncompilable hread hcompile hx =>
      rw [Request.readBytes_toUTF8] at hread
      rw [compileLine_of_read hread, if_neg Bool.false_ne_true, hcompile]
      exact ⟨rfl, rfl, _, _, _, List.mem_cons_of_mem _ List.mem_cons_self, hx, rfl⟩
    | rejected hread hcompile =>
      exact absurd (Compiler.statement?_eq_some_iff.mpr ⟨_, hread, hcompile⟩) (hnone _)
    | rows hread hcompile =>
      exact absurd (Compiler.statement?_eq_some_iff.mpr ⟨_, hread, hcompile⟩) (hnone _)

/-- A compile command fails before it reads a text if the configured options cannot be used. If they
can, it agrees on each text with the service that has these options, and with the option to prune it
prints the statement of the pruned request. -/
theorem execute_compile_agrees {m : Type → Type} [Monad m] [LawfulMonad m] {s : Sources m}
    {arguments : List String} {file config : Option String} {prune : Bool} {options : Options}
    (harguments : Invocation.ofArguments? arguments = some ⟨.compile file prune, config⟩)
    (hconfig : loadConfig s config = pure options) :
    (∀ e, Compiler.ofOptions options = .error e →
      ∃ errors, execute s arguments = pure ⟨1, "", errors⟩) ∧
    ∀ c text, Compiler.ofOptions options = .ok c → loadText s file = pure text →
      ∃ outcome, execute s arguments = pure outcome ∧
        (prune = false → ∀ answer, ∃ response statements,
          (handle text.toUTF8 c (Executor.noting answer)).run [] = (response, statements) ∧
            outcome.Matches response statements) ∧
        (prune = true → ∀ sql, (outcome.exitCode = 0 ∧ outcome.output = sql ++ "\n") ↔
          ∃ r, Request.read text = .ok r ∧ c.compile r.prune = .ok sql) := by
  refine ⟨fun e he => ⟨_, execute_unusable harguments hconfig he⟩, fun c text hc htext => ?_⟩
  refine ⟨_, execute_usable harguments hconfig hc htext, ?_, ?_⟩
  · rintro rfl answer
    exact ⟨_, _, c.run_handle_noting answer text.toUTF8 [], matches_respond c answer text⟩
  · rintro rfl sql
    rw [Outcome.printed_iff, compileLine_eq_ok_iff]
    rfl

/-- A configuration with its own alias, and an input that asks for a table. -/
def desk : Sources Id where
  file path :=
    if path = "base.toml" then .ok "[compiler]\nprimary_alias = \"base\"\n" else .error .missing
  input := .ok "\x7b\"table\": \"person\"\x7d"

theorem execute_compile_agrees_desk :
    Invocation.ofArguments? ["compile", "-cbase.toml"] =
      some ⟨.compile none false, some "base.toml"⟩ ∧
    loadConfig desk (some "base.toml") = pure { primaryAlias := "base" } ∧
    ∃ c text outcome, Compiler.ofOptions { primaryAlias := "base" } = .ok c ∧
      loadText desk none = pure text ∧
      execute desk ["compile", "-cbase.toml"] = pure outcome ∧
      outcome.output = "SELECT base.* FROM \"person\" AS base\n" ∧
      ∀ answer, ∃ response,
        (handle text.toUTF8 c (Executor.noting answer)).run [] =
          (response, ["SELECT base.* FROM \"person\" AS base"]) := by
  have harguments : Invocation.ofArguments? ["compile", "-cbase.toml"] =
      some ⟨.compile none false, some "base.toml"⟩ := by decide +kernel
  have hconfig : loadConfig desk (some "base.toml") = pure { primaryAlias := "base" } := by
    have hread : Config.read "[compiler]\nprimary_alias = \"base\"\n" =
        .ok { primaryAlias := "base" } := by decide +kernel
    show ofExcept ((Config.read _).mapError _) = _
    rw [hread]
    rfl
  obtain ⟨c, hc⟩ : ∃ c, Compiler.ofOptions { primaryAlias := "base" } = .ok c :=
    ⟨_, Compiler.ofOptions_of_usable (by decide +kernel)⟩
  have htext : loadText desk none = pure "\x7b\"table\": \"person\"\x7d" := rfl
  have hrun := (execute_compile_agrees harguments hconfig).2 c _ hc htext
  obtain ⟨outcome, houtcome, hmatches, -⟩ := hrun
  have hprinted : outcome.exitCode = 0 ∧
      outcome.output = "SELECT base.* FROM \"person\" AS base" ++ "\n" := by
    have hexecute : Id.run (execute desk ["compile", "-cbase.toml"]) =
        ⟨0, "SELECT base.* FROM \"person\" AS base\n", ""⟩ := by decide +kernel
    rw [houtcome] at hexecute
    exact ⟨congrArg Outcome.exitCode hexecute, congrArg Outcome.output hexecute⟩
  refine ⟨harguments, hconfig, c, _, outcome, hc, htext, houtcome, hprinted.2, fun answer => ?_⟩
  obtain ⟨response, statements, hhandle, hall⟩ := hmatches rfl answer
  rw [(hall.printed _).mp hprinted] at hhandle
  exact ⟨response, hhandle⟩

end CommandLine

end FilterSelect
