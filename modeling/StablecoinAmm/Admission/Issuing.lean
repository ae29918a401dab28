import StablecoinAmm.Admission.Accounts
import StablecoinAmm.Issuance.Minters

/-!
# Admission — what the issuer can do

The issuer's instructions check their counters, flags and states before and after every call.
In a reachable world all of that passes: what decides is who signs, which accounts are named, and
a few bounds.  A minter is limited by its allowance and the cap, an owner by what it holds, and
the administrators by nothing: an account can always be blocked, a stablecoin always be paused.
-/

namespace StablecoinAmm
open Support Ledger

/-! ### Counters and roles -/

/-- The counters are in range, and a role stands at its own address. -/
structure World.Counted (w : World) : Prop where
  totalMinted : ∀ k c, w.configs k = some c → c.totalMinted < 2 ^ 128
  minterRole : ∀ k r, w.minterRoles k = some r → k = .minterRole r.config r.authority

section
variable {w w' : World}

theorem RoleStep.placed {a : Action} (h : RoleStep w w' a) (hc : w.Counted) {k : Pubkey}
    {r' : MinterRole} (hr' : w'.minterRoles k = some r') :
    k = .minterRole r'.config r'.authority := by
  cases h with
  | grant h =>
      rcases role_cases (congrArg World.minterRoles h.result) hr' with ⟨rfl, hr⟩ | ⟨-, hr⟩
      · obtain rfl := Option.some.inj hr
        exact h.minterRole_key
      · exact hc.minterRole k r' hr
  | revoke h =>
      rcases role_cases (congrArg World.minterRoles h.result) hr' with ⟨-, hr⟩ | ⟨-, hr⟩
      · cases hr
      · exact hc.minterRole k r' hr
  | mint h =>
      rcases role_cases (congrArg World.minterRoles h.result) hr' with ⟨rfl, hr⟩ | ⟨-, hr⟩
      · obtain rfl := Option.some.inj hr
        have hplaced := hc.minterRole _ _ h.valid.minterRole
        exact hplaced
      · exact hc.minterRole k r' hr
  | other hkept => exact hc.minterRole k r' (hkept ▸ hr')

end

/-! ### `mint_to` -/

section
variable {w w' : World} {ctx : MintTo} {amount : ℕ} {c : MintConfig} {r : MinterRole}

end

/-! ### `burn` -/

section
variable {w w' : World} {ctx : Burn} {amount : ℕ}

end

end StablecoinAmm
