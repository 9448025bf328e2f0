import ContractBlocks.Command.Run
import ContractBlocks.Proofs.Command.Directory
import ContractBlocks.Proofs.Contract.ReadBack

namespace ContractBlocks

theorem Violation.plain_toJson (violation : Violation) : violation.toJson.Plain := by
  refine .object ?_ ?_
  · cases violation <;> simp [details]
  · cases violation <;> simp [details, Json.Plain.string, Json.plain_nat]

namespace Document

open Json (WellFormed)

/-- A violation is no document: no contract has the key that names the cause. -/
theorem read_violation_ne_ok (violation : Violation) (contract : Contract) :
    read violation.toJson ≠ .ok contract := by
  intro hread
  obtain ⟨entries, hcontract, hkeys, -⟩ := (read_eq_ok_iff.1 hread).exists_entries
  have herror : "error" ∈ entries.map Prod.fst := hkeys.mem_iff.1 List.mem_cons_self
  cases contract <;> rw [Contract.toJson] at hcontract <;> cases hcontract <;> simp at herror

theorem readText_violation_ne_ok (violation : Violation) (contract : Contract) :
    readText (violation.toJson.pretty ++ "\n") ≠ .ok contract := by
  rw [readText_of_wellFormed violation.plain_toJson.wellFormed_pretty_line]
  intro hread
  cases hfound : read violation.toJson with
  | ok found => exact read_violation_ne_ok violation found hfound
  | error fault =>
    rw [hfound] at hread
    cases hread

theorem readText_empty_ne_ok (contract : Contract) : readText "" ≠ .ok contract := by
  have hnone : (readText "").toOption = none := by decide +kernel
  intro hread
  rw [hread] at hnone
  cases hnone

theorem readText_of_wellFormed_toJson {text : String} {contract : Contract}
    (hformed : WellFormed text.toList contract.toJson) : readText text = .ok contract := by
  rw [readText_of_wellFormed hformed, read_eq_ok_iff.2 (.refl _)]
  rfl

theorem readText_pretty (contract : Contract) : readText contract.pretty = .ok contract := by
  apply readText_of_wellFormed_toJson
  rw [Contract.pretty, Json.pretty, String.toList_ofList]
  exact contract.plain_toJson.wellFormed_writeOnto Json.Layout.isBlank_pretty

theorem readText_pretty_line (contract : Contract) : readText (contract.pretty ++ "\n") = .ok contract :=
  readText_of_wellFormed_toJson contract.plain_toJson.wellFormed_pretty_line

end Document

/-- Runs a command on the files of a directory. -/
def Command.runIn (command : Command) (d : Directory) : Report × Directory :=
  (command.run : StateM Directory Report).run d

/-- Checking a file succeeds, counts the nodes of a contract and changes nothing. -/
def Directory.Checks (d : Directory) (path : String) (contract : Contract) : Prop :=
  let (report, after) := (Command.check path).runIn d
  report.exitCode = .success ∧
    report.output = path ++ ": ok (" ++ Decimal.natText contract.size ++ " contract nodes)\n" ∧ after = d

namespace Command

variable {d after : Directory} {workspace path text : String} {output : Option String} {report : Report}
  {g : BlockGraph} {contract : Contract}

theorem runIn_check_of_read (hread : d.read path = .ok text) :
    (check path).runIn d = (.checked path (Document.readText text), d) := by
  simp only [runIn, run, runCheck, StateT.run, bind, StateT.bind, MonadFiles.readText, hread]
  rfl

theorem checks_of_read (hread : d.read path = .ok text) (htext : Document.readText text = .ok contract) :
    d.Checks path contract := by
  rw [Directory.Checks, runIn_check_of_read hread, htext]
  exact ⟨rfl, rfl, rfl⟩

/-- Checking a text that can be read succeeds exactly when the text is a document. -/
theorem exitCode_check_iff (hread : d.read path = .ok text) :
    (((check path).runIn d).1.exitCode = .success ↔ ∃ contract, Document.readText text = .ok contract) ∧
    (((check path).runIn d).1.exitCode = .invalid ↔ ∀ contract, Document.readText text ≠ .ok contract) := by
  rw [runIn_check_of_read hread]
  cases htext : Document.readText text <;> simp [Report.checked]

/-- The number that compiling exits with, by the first of its steps that fails. -/
def compileExit (d : Directory) (workspace : String) (output : Option String) : Nat :=
  match d.read workspace with
  | .error _ => 3
  | .ok text =>
    match Workspace.importText text with
    | .error _ => 2
    | .ok g =>
      match g.source.compile, output with
      | .error _, _ => 1
      | .ok _, none => 0
      | .ok contract, some path => if (d.write path contract.pretty).isOk then 0 else 3

/-- The document of a contract is printed with a line break after it, or it is all that the named file
    holds. It can be checked from there. Nothing else changed and nothing else is printed. -/
def Delivered (d : Directory) (contract : Contract) (report : Report) (after : Directory) : Option String → Prop
  | none => report.output = contract.pretty ++ "\n" ∧ after = d ∧
      ∀ (files : Directory) (path : String), files.read path = .ok report.output → files.Checks path contract
  | some path => report.output = "" ∧ d.Written path contract.pretty after ∧ after.Checks path contract

/-- How compiling ends: what was printed, and what the files are after it. -/
inductive Ends (d : Directory) (workspace : String) : Option String → Report → Directory → Prop
  | unreadable {fault : FileFault} {output : Option String} {report : Report}
      (hread : d.read workspace = .error fault) (hcode : report.exitCode = .inaccessible)
      (hprinted : report.output = "") : Ends d workspace output report d
  | invalid {text : String} {fault : Workspace.ImportFault} {output : Option String} {report : Report}
      (hread : d.read workspace = .ok text) (himport : Workspace.importText text = .error fault)
      (hcode : report.exitCode = .invalid) (hprinted : report.output = "") : Ends d workspace output report d
  | violated {text : String} {g : BlockGraph} {violation : Violation} {output : Option String} {report : Report}
      (hread : d.read workspace = .ok text) (himport : Workspace.importText text = .ok g)
      (hcompile : g.source.compile = .error violation) (hcode : report.exitCode = .violation)
      (hprinted : report.output = violation.toJson.pretty ++ "\n") : Ends d workspace output report d
  | unwritable {text path : String} {g : BlockGraph} {contract : Contract} {fault : FileFault} {report : Report}
      (hread : d.read workspace = .ok text) (himport : Workspace.importText text = .ok g)
      (hcompile : g.source.compile = .ok contract) (hwrite : d.write path contract.pretty = .error fault)
      (hcode : report.exitCode = .inaccessible) (hprinted : report.output = "") :
      Ends d workspace (some path) report d
  | written {text path : String} {g : BlockGraph} {contract : Contract} {report : Report} {after : Directory}
      (hread : d.read workspace = .ok text) (himport : Workspace.importText text = .ok g)
      (hcompile : g.source.compile = .ok contract) (hwrite : d.write path contract.pretty = .ok after)
      (hcode : report.exitCode = .success) (hprinted : report.output = "") :
      Ends d workspace (some path) report after
  | printed {text : String} {g : BlockGraph} {contract : Contract} {report : Report}
      (hread : d.read workspace = .ok text) (himport : Workspace.importText text = .ok g)
      (hcompile : g.source.compile = .ok contract) (hcode : report.exitCode = .success)
      (hprinted : report.output = contract.pretty ++ "\n") : Ends d workspace none report d

theorem ends_compileGraph (hread : d.read workspace = .ok text) (himport : Workspace.importText text = .ok g)
    (hrun : (compileGraph g output : StateM Directory Report).run d = (report, after)) :
    Ends d workspace output report after := by
  rw [compileGraph] at hrun
  cases hcompile : g.source.compile with
  | error violation =>
    rw [hcompile] at hrun
    cases hrun
    exact .violated hread himport hcompile rfl rfl
  | ok contract =>
    rw [hcompile] at hrun
    cases output with
    | none =>
      cases hrun
      exact .printed hread himport hcompile rfl rfl
    | some path =>
      simp only [deliver, StateT.run, bind, StateT.bind, MonadFiles.writeText] at hrun
      cases hwrite : d.write path contract.pretty with
      | error fault =>
        rw [hwrite] at hrun
        cases hrun
        exact .unwritable hread himport hcompile hwrite rfl rfl
      | ok files =>
        rw [hwrite] at hrun
        cases hrun
        exact .written hread himport hcompile hwrite rfl rfl

theorem ends_runIn (d : Directory) (workspace : String) (output : Option String) :
    Ends d workspace output ((compile workspace output).runIn d).1 ((compile workspace output).runIn d).2 := by
  obtain ⟨⟨report, after⟩, hrun⟩ : ∃ result, (compile workspace output).runIn d = result := ⟨_, rfl⟩
  rw [hrun]
  simp only [runIn, run, runCompile, StateT.run, bind, StateT.bind, MonadFiles.readText] at hrun
  cases hread : d.read workspace with
  | error fault =>
    rw [hread] at hrun
    cases hrun
    exact .unreadable hread rfl rfl
  | ok text =>
    rw [hread] at hrun
    cases himport : Workspace.importText text with
    | error fault =>
      simp only [himport] at hrun
      cases hrun
      exact .invalid hread himport rfl rfl
    | ok g =>
      simp only [himport] at hrun
      exact ends_compileGraph hread himport hrun

namespace Ends

theorem exitCode_eq (hends : Ends d workspace output report after) :
    report.exitCode.toNat = compileExit d workspace output := by
  cases hends <;> simp [*, compileExit, ExitCode.toNat, Except.isOk, Except.toBool]

/-- A failure leaves the files as they were and prints no document. -/
theorem failed (hends : Ends d workspace output report after) (hcode : report.exitCode ≠ .success) :
    after = d ∧ ∀ contract, Document.readText report.output ≠ .ok contract := by
  cases hends with
  | unreadable _ _ hprinted | invalid _ _ _ hprinted | unwritable _ _ _ _ _ hprinted =>
    rw [hprinted]
    exact ⟨rfl, Document.readText_empty_ne_ok⟩
  | violated _ _ _ _ hprinted =>
    rw [hprinted]
    exact ⟨rfl, Document.readText_violation_ne_ok _⟩
  | written _ _ _ _ hsuccess | printed _ _ _ hsuccess => exact absurd hsuccess hcode

theorem succeeded (hends : Ends d workspace output report after) (hcode : report.exitCode = .success) :
    ∃ text g contract, d.read workspace = .ok text ∧ Workspace.importText text = .ok g ∧
      g.source.compile = .ok contract ∧
      Delivered d contract report after output := by
  cases hends with
  | unreadable _ hfailed | invalid _ _ hfailed | violated _ _ _ hfailed | unwritable _ _ _ _ hfailed =>
    rw [hfailed] at hcode
    cases hcode
  | written hread himport hcompile hwrite _ hprinted =>
    have hwritten := Directory.written_of_write hwrite
    exact ⟨_, _, _, hread, himport, hcompile, hprinted, hwritten,
      checks_of_read hwritten.read_eq (Document.readText_pretty _)⟩
  | printed hread himport hcompile _ hprinted =>
    refine ⟨_, _, _, hread, himport, hcompile, hprinted, rfl, fun files path hsaved => ?_⟩
    rw [hprinted] at hsaved
    exact checks_of_read hsaved (Document.readText_pretty_line _)

end Ends

/-- The exit code of compiling tells which step failed, if one did: then the files are as they were, and
    what is printed is no document. Otherwise the document of the contract is delivered, and checking it
    succeeds with the size of the contract. Any text that can be read is checked with success exactly
    when it is a document. -/
theorem compile_then_check (d : Directory) (workspace : String) (output : Option String) :
    let (report, after) := (compile workspace output).runIn d
    (report.exitCode.toNat = compileExit d workspace output) ∧
    (report.exitCode ≠ .success →
      after = d ∧ ∀ contract, Document.readText report.output ≠ .ok contract) ∧
    (report.exitCode = .success → ∃ text g contract, d.read workspace = .ok text ∧
      Workspace.importText text = .ok g ∧ g.source.compile = .ok contract ∧
      Delivered d contract report after output) ∧
    ∀ document text, d.read document = .ok text →
      (((check document).runIn d).1.exitCode = .success ↔ ∃ contract, Document.readText text = .ok contract) ∧
      (((check document).runIn d).1.exitCode = .invalid ↔ ∀ contract, Document.readText text ≠ .ok contract) := by
  have hends := ends_runIn d workspace output
  exact ⟨hends.exitCode_eq, hends.failed, hends.succeeded, fun _ _ => exitCode_check_iff⟩

end Command

end ContractBlocks
