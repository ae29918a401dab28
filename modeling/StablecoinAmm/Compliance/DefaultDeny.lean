import StablecoinAmm.System.History

/-!
# Compliance — default deny

`default_deny`: whatever moves a balance of a stablecoin, in whatever run, the account had an
`Allowed` policy of its own just before.  A balance moves only on a thawed account
(`Effect.honest`), and a thawed account has such a policy (`World.Shape.thawed`); the vaults of a
pool are accounts like any other.
-/

namespace StablecoinAmm
open Support

section
variable {w w' : World} {m k : Pubkey}

/-- **Only allowed accounts move.** -/
theorem default_deny (hw : w.Reachable) (hm : w.IsStablecoin m) {a : Action}
    (h : step w a = .ok w') (hk : w'.ledger.balanceOf m k ≠ w.ledger.balanceOf m k) :
    w.IsAllowed m k := by
  obtain ⟨b, hb, rfl, hf, -⟩ := (step_effect hw.inv h).honest.balanceOf m k hk
  exact hw.inv.shape.thawed k b hb hm hf

end

/-- A swap on the lopsided pool takes from a vault, which was allowed. -/
theorem default_deny_lopsided :
    ∃ w', step lopsided (.swap Lopsided.accounts.toPoolAccounts .aToB 1 0) = .ok w' ∧
      w'.ledger.balanceOf Lopsided.mintB (.vault Lopsided.pool Lopsided.mintB) = 501754 ∧
      lopsided.IsAllowed Lopsided.mintB (.vault Lopsided.pool Lopsided.mintB) := by
  have hstep : step lopsided (.swap Lopsided.accounts.toPoolAccounts .aToB 1 0) =
      .ok (lopsided.afterAll [.swap Lopsided.accounts.toPoolAccounts .aToB 1 0]) :=
    (run_afterAll (by decide +kernel)).of_one
  have hst : lopsided.IsStablecoin Lopsided.mintB :=
    Option.isSome_iff_exists.mp (by decide +kernel)
  exact ⟨_, hstep, by decide +kernel,
    default_deny lopsided_reachable hst hstep (by decide +kernel)⟩

end StablecoinAmm
