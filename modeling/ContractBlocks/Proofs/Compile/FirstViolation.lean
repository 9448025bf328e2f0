import ContractBlocks.Proofs.Compile.Parts
import ContractBlocks.Proofs.Compile.Root

namespace ContractBlocks.Source

/-- Compiling reports exactly the first of all violations that the grammar's table gives rise to, in
    the order of the table, and makes a contract exactly where there is none. -/
theorem compile_reports_first_violation (S : Source) :
    ((∃ contract, S.compile = .ok contract) ↔ S.violations = []) ∧
      ∀ violation, S.compile = .error violation ↔ S.violations.head? = some violation := by
  rw [compile_eq, violations]
  cases S.leastRoot? with
  | none => simp
  | some root =>
    simp only [compileBelow]
    cases S.slot root "CONTRACT" with
    | none => simp
    | some node =>
      have hfinds := (Parts.parts_finds S).contract node
      exact ⟨hfinds.ok_iff, hfinds.error_iff⟩

end ContractBlocks.Source
