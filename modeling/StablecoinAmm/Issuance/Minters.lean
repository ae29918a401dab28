import StablecoinAmm.Support.Totals
import StablecoinAmm.System.History

/-!
# Issuance — the minters' accounts

Minter roles come and go; an address that lost its role may get a new one that starts from
nothing.  What a configuration counts as minted is what its roles count, plus what roles had
counted when they were revoked (`minter_accounting`), and with the allowances it is the same: so
no more is ever minted than was allowed.

`World.under k f` is one number `f` of each role of the configuration `k`.  One lemma covers
both the mints and the allowances (`step_under`, `run_under`).
-/

namespace StablecoinAmm
open Support

/-- The `f` of a role, if there is one and it is of the configuration `k`. -/
def roleValue (k : Pubkey) (f : MinterRole → ℕ) : Option MinterRole → ℕ
  | some r => if r.config = k then f r else 0
  | none => 0

/-- The `f` of every role of the configuration `k`. -/
def World.under (w : World) (k : Pubkey) (f : MinterRole → ℕ) (r : Pubkey) : ℕ :=
  roleValue k f (w.minterRoles r)

namespace Action

/-- The `f` of the role of `k` that an action revokes. -/
def retired (k : Pubkey) (f : MinterRole → ℕ) (w : World) : Action → ℕ
  | .revokeMinter ctx => w.under k f ctx.minterRole
  | _ => 0

/-- What an action adds to the `f` of the roles of `k`, where minting `n` adds `g n`. -/
def entered (k : Pubkey) (f : MinterRole → ℕ) (g : ℕ → ℕ) : Action → ℕ
  | .grantMinter ctx allowance =>
      roleValue k f
        (some { config := ctx.config, authority := ctx.authority, allowance, minted := 0 })
  | .mintTo ctx amount => if ctx.config = k then g amount else 0
  | _ => 0

/-- The allowance an action grants under `k`. -/
def granted (k : Pubkey) : Action → ℕ
  | .grantMinter ctx allowance => if ctx.config = k then allowance else 0
  | _ => 0

/-- What an action mints under `k`. -/
def charged (k : Pubkey) : Action → ℕ
  | .mintTo ctx amount => if ctx.config = k then amount else 0
  | _ => 0

end Action

section
variable {w w' : World} {k : Pubkey} {f : MinterRole → ℕ} {g : ℕ → ℕ} {n : ℕ}

/-! ### One step -/

/-- What a step does to the minter roles. -/
inductive RoleStep (w w' : World) : Action → Prop
  | grant {ctx : GrantMinter} {allowance : ℕ} {c : MintConfig}
      (h : ctx.Effect w allowance c w') : RoleStep w w' (.grantMinter ctx allowance)
  | revoke {ctx : RevokeMinter} {c : MintConfig} {r : MinterRole} (h : ctx.Effect w c r w') :
      RoleStep w w' (.revokeMinter ctx)
  | mint {ctx : MintTo} {amount : ℕ} {a : MintTo.Loaded} {l : Ledger}
      (h : ctx.Effect w amount a l w') : RoleStep w w' (.mintTo ctx amount)
  | other {a : Action} (hkept : w'.minterRoles = w.minterRoles)
      (hidle : ∀ k f g, a.entered k f g = 0 ∧ a.retired k f w = 0) : RoleStep w w' a

/-- **Only three instructions touch the minter roles.** -/
theorem Action.Effect.roleStep : ∀ {a : Action}, a.Effect w w' → step w a = .ok w' →
    RoleStep w w' a
  | .grantMinter .., _, h => by
      obtain ⟨c, h⟩ := grantMinter_effect (mapError_ok_iff.mp h)
      exact .grant h
  | .revokeMinter .., _, h => by
      obtain ⟨c, r, h⟩ := revokeMinter_effect (mapError_ok_iff.mp h)
      exact .revoke h
  | .mintTo .., ⟨_, _, h⟩, _ => .mint h
  | .initializeStablecoin .., ⟨_, _, h⟩, _ =>
      .other (by rw [h.result]; rfl) fun _ _ _ => ⟨rfl, rfl⟩
  | .setWalletPolicy .., ⟨_, _, h⟩, _ => .other (by rw [h.result]; rfl) fun _ _ _ => ⟨rfl, rfl⟩
  | .burn .., ⟨_, _, h⟩, _ => .other (by rw [h.result]; rfl) fun _ _ _ => ⟨rfl, rfl⟩
  | .setPause .., ⟨_, _, _, h⟩, _ => .other (by rw [h.result]; rfl) fun _ _ _ => ⟨rfl, rfl⟩
  | .updateConfig .., ⟨_, h⟩, _ => .other (by rw [h.result]; rfl) fun _ _ _ => ⟨rfl, rfl⟩
  | .acceptAdmin .., ⟨_, _, _, h⟩, _ => .other (by rw [h]; rfl) fun _ _ _ => ⟨rfl, rfl⟩
  | .initializePool .., ⟨_, _, h⟩, _ => .other (by rw [h.result]; rfl) fun _ _ _ => ⟨rfl, rfl⟩
  | .addLiquidity .., ⟨_, _, _, _, _, _, h⟩, _ =>
      .other (by rw [h.result]; rfl) fun _ _ _ => ⟨rfl, rfl⟩
  | .removeLiquidity .., ⟨_, _, _, _, _, h⟩, _ =>
      .other (by rw [h.result]; rfl) fun _ _ _ => ⟨rfl, rfl⟩
  | .swap .., ⟨_, _, _, _, h⟩, _ => .other (by rw [h.result]; rfl) fun _ _ _ => ⟨rfl, rfl⟩
  | .createAccount .., ⟨_, _, _, _, h⟩, _ => .other (by rw [h]) fun _ _ _ => ⟨rfl, rfl⟩
  | .transfer .., ⟨_, _, _, h⟩, _ => .other (by rw [h]) fun _ _ _ => ⟨rfl, rfl⟩
  | .burnDirect .., ⟨_, _, _, h⟩, _ => .other (by rw [h]) fun _ _ _ => ⟨rfl, rfl⟩
  | .setOwner .., ⟨_, _, _, _, _, _, h⟩, _ => .other (by rw [h]) fun _ _ _ => ⟨rfl, rfl⟩
  | .closeAccount .., ⟨_, _, _, _, _, h⟩, _ => .other (by rw [h]) fun _ _ _ => ⟨rfl, rfl⟩

theorem step_role (hw : w.Inv) {a : Action} (h : step w a = .ok w') : RoleStep w w' a :=
  (step_effect hw h).roleStep h

/-! ### Live and revoked roles -/

/-- Minting `n` raises the `f` of a role by `g n`. -/
def RaisedBy (f : MinterRole → ℕ) (g : ℕ → ℕ) : Prop :=
  ∀ (r : MinterRole) (n : ℕ), f { r with minted := r.minted + n } = f r + g n

section
variable {j : Pubkey} {r : Option MinterRole}

/-- A role that is found after a write was written, or was there. -/
theorem role_cases (h : w'.minterRoles = Function.update w.minterRoles j r) {i : Pubkey}
    {role : MinterRole} (hi : w'.minterRoles i = some role) :
    (i = j ∧ r = some role) ∨ (i ≠ j ∧ w.minterRoles i = some role) := by
  rw [h, Function.update_apply] at hi
  split_ifs at hi with hij
  · exact .inl ⟨hij, hi⟩
  · exact .inr ⟨hij, hi⟩

theorem totals_under_write (hn : Totals (w.under k f) n)
    (h : w'.minterRoles = Function.update w.minterRoles j r) :
    ∃ n', Totals (w'.under k f) n' ∧ n' + w.under k f j = n + roleValue k f r := by
  have hunder : w'.under k f = Function.update (w.under k f) j (roleValue k f r) := by
    funext i
    by_cases hi : i = j
    · subst hi
      rw [World.under, h, Function.update_self, Function.update_self]
    · rw [World.under, h, Function.update_of_ne hi, Function.update_of_ne hi, World.under]
  rw [hunder]
  exact hn.update j _

end

/-- **Roles in a step.**  What the live roles count, with what a revoked one had counted, is what
they counted before and what the action adds. -/
theorem RoleStep.under (hf : RaisedBy f g) (hn : Totals (w.under k f) n) {a : Action}
    (h : RoleStep w w' a) :
    ∃ n', Totals (w'.under k f) n' ∧ n' + a.retired k f w = n + a.entered k f g := by
  cases h with
  | @grant ctx _ _ h =>
      obtain ⟨n', hn', he⟩ := totals_under_write hn (congrArg World.minterRoles h.result)
      have hfree : w.under k f ctx.minterRole = 0 := by rw [World.under, h.minterRole_free]; rfl
      rw [hfree] at he
      exact ⟨n', hn', he⟩
  | revoke h => exact totals_under_write hn (congrArg World.minterRoles h.result)
  | @mint ctx amount a _ h =>
      obtain ⟨n', hn', he⟩ := totals_under_write hn (congrArg World.minterRoles h.result)
      rw [World.under, h.valid.minterRole] at he
      refine ⟨n', hn', ?_⟩
      have hraised := hf a.minterRole amount
      simp only [roleValue] at he
      show n' + 0 = n + if ctx.config = k then g amount else 0
      rw [← h.valid.minterRole_config]
      split_ifs at he ⊢ <;> omega
  | other hkept hidle =>
      obtain ⟨hin, hout⟩ := hidle k f g
      refine ⟨n, ?_, by rw [hin, hout]⟩
      rwa [show w'.under k f = w.under k f from funext fun r => by rw [World.under, hkept]; rfl]

/-- **Roles along a run.** -/
theorem run_under (hf : RaisedBy f g) (hw : w.Inv) (hn : Totals (w.under k f) n)
    {as : List Action} (t : Run step w as w') :
    ∃ n', Totals (w'.under k f) n' ∧
      n' + sumAlong step (Action.retired k f) w as =
        n + (as.map (Action.entered k f g)).sum := by
  induction t generalizing n with
  | refl => exact ⟨n, hn, rfl⟩
  | more h _ ih =>
      obtain ⟨n₁, hn₁, he₁⟩ := (step_role hw h).under hf hn
      obtain ⟨n', hn', he'⟩ := ih (step_inv _ _ _ hw h) hn₁
      refine ⟨n', hn', ?_⟩
      rw [sumAlong_cons h, List.map_cons, List.sum_cons]
      omega

/-! ### Mints and allowances -/

theorem raisedBy_minted : RaisedBy MinterRole.minted id := fun _ _ => rfl

theorem raisedBy_allowance : RaisedBy MinterRole.allowance fun _ => 0 := fun _ _ => rfl

theorem entered_minted : Action.entered k MinterRole.minted id = Action.charged k := by
  funext a
  cases a with
  | grantMinter => exact ite_self 0
  | _ => rfl

theorem entered_allowance :
    Action.entered k MinterRole.allowance (fun _ => 0) = Action.granted k := by
  funext a
  cases a with
  | mintTo => exact ite_self 0
  | _ => rfl

/-- No live role has minted more than its allowance. -/
def World.WithinAllowances (w : World) : Prop :=
  ∀ r role, w.minterRoles r = some role → role.minted ≤ role.allowance

theorem under_le (hw : w.WithinAllowances) (r : Pubkey) :
    w.under k MinterRole.minted r ≤ w.under k MinterRole.allowance r := by
  unfold World.under
  rcases hr : w.minterRoles r with _ | role
  · exact le_rfl
  · simp only [roleValue]
    split_ifs
    · exact hw r role hr
    · exact le_rfl

theorem RoleStep.within {a : Action} (h : RoleStep w w' a) (hw : w.WithinAllowances) :
    w'.WithinAllowances := by
  intro r role hr
  cases h with
  | grant h =>
      rcases role_cases (congrArg World.minterRoles h.result) hr with ⟨-, ⟨⟩⟩ | ⟨-, hr⟩
      · exact Nat.zero_le _
      · exact hw r role hr
  | revoke h =>
      rcases role_cases (congrArg World.minterRoles h.result) hr with ⟨-, ⟨⟩⟩ | ⟨-, hr⟩
      exact hw r role hr
  | mint h =>
      rcases role_cases (congrArg World.minterRoles h.result) hr with ⟨-, ⟨⟩⟩ | ⟨-, hr⟩
      · exact h.within
      · exact hw r role hr
  | other hkept => exact hw r role (hkept ▸ hr)

/-- A role is charged only for mints of its own configuration. -/
theorem RoleStep.charged {a : Action} (h : RoleStep w w' a) {r : Pubkey} {role role' : MinterRole}
    (hr : w.minterRoles r = some role) (hr' : w'.minterRoles r = some role') :
    role' = role ∨ ∃ ctx amount, a = .mintTo ctx amount ∧ role.config = .config ctx.mint ∧
      role' = { role with minted := role.minted + amount } := by
  cases h with
  | grant h =>
      rcases role_cases (congrArg World.minterRoles h.result) hr' with ⟨rfl, -⟩ | ⟨-, hold⟩
      · cases hr.symm.trans h.minterRole_free
      · exact .inl (Option.some.inj (hold.symm.trans hr))
  | revoke h =>
      rcases role_cases (congrArg World.minterRoles h.result) hr' with ⟨-, ⟨⟩⟩ | ⟨-, hold⟩
      exact .inl (Option.some.inj (hold.symm.trans hr))
  | @mint ctx amount _ _ h =>
      rcases role_cases (congrArg World.minterRoles h.result) hr' with ⟨rfl, hnew⟩ | ⟨-, hold⟩
      · obtain rfl := Option.some.inj (hr.symm.trans h.valid.minterRole)
        exact .inr ⟨ctx, amount, rfl, h.valid.minterRole_config.trans h.valid.config_key,
          (Option.some.inj hnew).symm⟩
      · exact .inl (Option.some.inj (hold.symm.trans hr))
  | other hkept => exact .inl (Option.some.inj (hr'.symm.trans (hkept ▸ hr)))

/-! ### The configuration's counter -/

/-- What the configuration at `k` counts as minted. -/
def World.totalMinted (w : World) (k : Pubkey) : ℕ := (w.configs k).elim 0 (·.totalMinted)

/-- What is minted under a configuration is minted of its mint. -/
theorem Action.Effect.charged_eq (hs : w.Shape) {c : MintConfig} (hc : w.configs k = some c) :
    ∀ {a : Action}, a.Effect w w' → a.issued c.mint = a.charged k
  | .mintTo ctx amount, ⟨_, _, h⟩ => by
      have hkey : ctx.config = k ↔ c.mint = ctx.mint := by
        rw [h.valid.config_key, (hs.config k c hc).1.key, Pubkey.config.injEq, eq_comm]
      simp only [issued, charged, hkey]
  | .initializeStablecoin .., _ | .grantMinter .., _ | .revokeMinter .., _
  | .setWalletPolicy .., _ | .burn .., _ | .setPause .., _ | .updateConfig .., _
  | .acceptAdmin .., _ | .initializePool .., _ | .addLiquidity .., _ | .removeLiquidity .., _
  | .swap .., _ | .createAccount .., _ | .transfer .., _ | .burnDirect .., _ | .setOwner .., _
  | .closeAccount .., _ => rfl

/-- Nothing is minted under a configuration that does not exist. -/
theorem Action.Effect.charged_of_none (hc : w.configs k = none) {a : Action}
    (h : a.Effect w w') : a.charged k = 0 := by
  cases a with
  | mintTo ctx amount =>
      obtain ⟨_, _, h⟩ := h
      refine if_neg ?_
      rintro rfl
      cases hc.symm.trans h.valid.config
  | _ => rfl

/-- The counter of a configuration goes up by what is minted under it. -/
theorem step_totalMinted (hw : w.Inv) {a : Action} (h : step w a = .ok w') (k : Pubkey) :
    w'.totalMinted k = w.totalMinted k + a.charged k := by
  have heff := step_effect hw h
  rcases hc : w.configs k with _ | c
  · rw [heff.charged_of_none hc, World.totalMinted, World.totalMinted, hc]
    rcases hc' : w'.configs k with _ | c'
    · rfl
    · exact (heff.config_new hc hc').totalMinted
  · obtain ⟨c', hc', hb⟩ := heff.booked hw.shape k c hc
    rw [World.totalMinted, World.totalMinted, hc, hc', ← heff.charged_eq hw.shape hc]
    exact hb.totalMinted

/-! ### Runs -/

theorem step_within (w : World) (a : Action) (w' : World) (h : w.Inv ∧ w.WithinAllowances)
    (hstep : step w a = .ok w') : w'.Inv ∧ w'.WithinAllowances :=
  ⟨step_inv w a w' h.1 hstep, (step_role h.1 hstep).within h.2⟩

theorem retired_le (hw : w.WithinAllowances) (a : Action) :
    a.retired k MinterRole.minted w ≤ a.retired k MinterRole.allowance w := by
  cases a with
  | revokeMinter ctx =>
      exact under_le hw ctx.minterRole
  | _ => exact le_rfl

/-- **Minter accounting.**  In every state of every run a configuration counts as minted what its
live roles have minted and what revoked ones had, no live role has minted more than its allowance,
and what is minted is within what was ever allowed.  A role is charged only for mints of its own
configuration. -/
theorem minter_accounting {addressBytes : Pubkey → List UInt8} {as : List Action}
    (t : Run step (World.genesis addressBytes) as w) :
    (∀ k c, w.configs k = some c →
      (∃ n, Totals (w.under k MinterRole.minted) n ∧
        c.totalMinted = n + sumAlong step (Action.retired k MinterRole.minted)
          (World.genesis addressBytes) as) ∧
      c.totalMinted ≤ (as.map (Action.granted k)).sum) ∧
    (∀ r role, w.minterRoles r = some role → role.minted ≤ role.allowance) ∧
    ∀ a w' r role role', step w a = .ok w' → w.minterRoles r = some role →
      w'.minterRoles r = some role' → role' = role ∨
        ∃ ctx amount, a = .mintTo ctx amount ∧ role.config = .config ctx.mint ∧
          role' = { role with minted := role.minted + amount } := by
  have h₀ := inv_genesis addressBytes
  have hzero : ∀ k f, Totals ((World.genesis addressBytes).under k f) 0 := fun _ _ => Totals.zero
  have hwithin₀ : (World.genesis addressBytes).WithinAllowances := fun _ _ h => nomatch h
  obtain ⟨hw, hwithin⟩ := t.invariant step_within ⟨h₀, hwithin₀⟩
  refine ⟨fun k c hc => ?_, hwithin, fun a w' r role role' h hr hr' => ?_⟩
  · have hcount := t.tally step_inv (fun _ _ _ hi h => step_totalMinted hi h k) h₀
    obtain ⟨n, hn, he⟩ := run_under (k := k) raisedBy_minted h₀ (hzero _ _) t
    obtain ⟨m, hm, he'⟩ := run_under (k := k) raisedBy_allowance h₀ (hzero _ _) t
    rw [entered_minted] at he
    rw [entered_allowance] at he'
    have hcounter : w.totalMinted k = c.totalMinted := by rw [World.totalMinted, hc]; rfl
    have hstart : (World.genesis addressBytes).totalMinted k = 0 := rfl
    rw [hcounter, hstart] at hcount
    -- live or revoked, a role minted no more than its allowance
    have hlive : n ≤ m := hn.mono hm (under_le hwithin)
    have hgone := t.sumAlong_le step_within (fun _ a h => retired_le (k := k) h.2 a) ⟨h₀, hwithin₀⟩
    exact ⟨⟨n, hn, by omega⟩, by omega⟩
  · exact (step_role hw h).charged hr hr'

end

open Lopsided in
/-- The issuer of the lopsided pool loses its role for the first stablecoin, and gets another. -/
def lopsidedRegrant : List Action :=
  history ++
    [.revokeMinter
        { admin := issuer, config := .config mintA, authority := issuer,
          minterRole := .minterRole (.config mintA) issuer },
      .grantMinter
        { admin := issuer, config := .config mintA, authority := issuer,
          minterRole := .minterRole (.config mintA) issuer } 5]

theorem minter_accounting_lopsided :
    ∃ w c n, Run step (World.genesis Lopsided.addressBytes) lopsidedRegrant w ∧
      w.configs (.config Lopsided.mintA) = some c ∧ c.totalMinted = n + 1000 ∧
      c.totalMinted ≤ maxSupplyCap + 5 := by
  have hrun : Run step (World.genesis Lopsided.addressBytes) lopsidedRegrant _ :=
    run_afterAll (by decide +kernel)
  obtain ⟨c, hc⟩ : ∃ c, ((World.genesis Lopsided.addressBytes).afterAll lopsidedRegrant).configs
      (.config Lopsided.mintA) = some c := Option.isSome_iff_exists.mp (by decide +kernel)
  have hretired : sumAlong step (Action.retired (.config Lopsided.mintA) MinterRole.minted)
      (World.genesis Lopsided.addressBytes) lopsidedRegrant = 1000 := by decide +kernel
  have hgranted : (lopsidedRegrant.map (Action.granted (.config Lopsided.mintA))).sum =
      maxSupplyCap + 5 := by decide +kernel
  obtain ⟨⟨n, -, hn⟩, hle⟩ := (minter_accounting hrun).1 _ c hc
  exact ⟨_, c, n, hrun, hc, hretired ▸ hn, hgranted ▸ hle⟩

end StablecoinAmm
