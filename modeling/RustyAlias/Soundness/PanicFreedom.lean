import RustyAlias.Proofs.Truncation

/-! # No query stops the server

Every query and every configuration takes the handler, and the truncation behind it, to a result.
-/

namespace RustyAlias

open Rust Dns

/-- The handler returns, and so does the truncation of what it returns. -/
theorem handleQueryInternal_returns (clock : Clock) (query : Slice) (config : Config) :
    ∃ response, handleQueryInternal clock query config = .ok response ∧
      (response ≠ [] → ∃ sent, maybeTruncateUdp response query = .ok sent) := by
  refine ⟨_, handleQueryInternal_eq clock query config, fun nonempty => ?_⟩
  cases answer : reply query config with
  | none => simp [answer] at nonempty
  | some result =>
    rw [Option.map_some, Option.getD_some, render, layout, maybeTruncateUdp_eq]
    exact ⟨_, rfl⟩

end RustyAlias
