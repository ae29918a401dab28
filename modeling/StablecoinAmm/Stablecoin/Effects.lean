import StablecoinAmm.Chain.Movement
import StablecoinAmm.Stablecoin.Issuance

/-!
# Stablecoin — what the instructions do

One statement for each instruction: what its success means for the world before it and what
the world after it is.  For the four that check the counters or the pause flag it also says
that the check cannot fail where the configuration is in order (`MintConfig.Tracks`, or a flag
that agrees with the ledger).
-/

namespace StablecoinAmm
open Support Ledger

/-- The counters cover the supply: what was minted and not burned through the program is at
least what is there. -/
def MintConfig.Tracks (c : MintConfig) (supply : ℕ) : Prop :=
  c.totalBurned + supply ≤ c.totalMinted

theorem ensureSupplyTracked_of {c : MintConfig} {supply : ℕ} (h : c.Tracks supply) :
    ensureSupplyTracked c supply = .ok () := by
  unfold MintConfig.Tracks at h
  rw [ensureSupplyTracked, checkedSub, if_pos (by omega), okOr_some, ok_bind]
  exact require_of (by omega) _

/-! ### `mint_to` -/

/-- The accounts of `mint_to` passed their constraints. -/
structure MintTo.Valid (w : World) (ctx : MintTo) (a : MintTo.Loaded) : Prop where
  signer : ctx.minter.isSigner
  mint : w.ledger.mints ctx.mint = some a.mint
  config : w.configs ctx.config = some a.config
  minterRole : w.minterRoles ctx.minterRole = some a.minterRole
  destination : w.ledger.tokens ctx.destination = some a.destination
  walletPolicy : w.walletPolicies (.walletPolicy ctx.mint ctx.destination) = some a.walletPolicy
  config_key : ctx.config = .config ctx.mint
  config_mint : a.config.mint = ctx.mint
  minterRole_key : ctx.minterRole = .minterRole ctx.config ctx.minter
  minterRole_config : a.minterRole.config = ctx.config
  minterRole_authority : a.minterRole.authority = ctx.minter
  destination_mint : a.destination.mint = ctx.mint
  walletPolicy_mint : a.walletPolicy.mint = ctx.mint

theorem MintTo.validate_sat (w : World) (ctx : MintTo) :
    Sat (ctx.validate w) (ctx.Valid w) (· ≠ .custom .counterInvariantViolation) := by
  refine .require (fun _ => nofun) fun hsigner => ?_
  refine .okOr (fun _ => nofun) fun mint hmint => ?_
  refine .okOr (fun _ => nofun) fun config hconfig => ?_
  refine .okOr (fun _ => nofun) fun minterRole hrole => ?_
  refine .okOr (fun _ => nofun) fun destination hdest => ?_
  refine .okOr (fun _ => nofun) fun walletPolicy hpolicy => ?_
  refine .require (fun _ => nofun) fun hck => ?_
  refine .require (fun _ => nofun) fun hcm => ?_
  refine .require (fun _ => nofun) fun hrk => ?_
  refine .require (fun _ => nofun) fun hrc => ?_
  refine .require (fun _ => nofun) fun hra => ?_
  refine .require (fun _ => nofun) fun hdm => ?_
  refine .require (fun _ => nofun) fun hpk => ?_
  refine .require (fun _ => nofun) fun hpm => ?_
  exact .pure ⟨hsigner, hmint, hconfig, hrole, hdest, hpk ▸ hpolicy, hck, hcm, hrk, hrc, hra, hdm,
    hpm⟩

/-- A successful `mint_to`. -/
structure MintTo.Effect (w : World) (ctx : MintTo) (amount : ℕ) (a : MintTo.Loaded) (l : Ledger)
    (w' : World) : Prop where
  valid : ctx.Valid w a
  amount_pos : 0 < amount
  unpaused : a.config.paused = false
  allowed : a.walletPolicy.status = .allowed
  within : a.minterRole.minted + amount ≤ a.minterRole.allowance
  capped : w.ledger.supply ctx.mint + amount ≤ a.config.supplyCap
  minted : Minted w.ledger ⟨ctx.mint, ctx.destination, ctx.config⟩ ctx.config amount l
  result : w' = ({ w with ledger := l }.setMinterRole ctx.minterRole
    (some { a.minterRole with minted := a.minterRole.minted + amount })).setConfig ctx.config
      { a.config with totalMinted := a.config.totalMinted + amount }

theorem mintTo_sat {w : World} {ctx : MintTo} {amount : ℕ}
    (h : ∀ c M, w.configs ctx.config = some c → w.ledger.mints c.mint = some M →
      c.Tracks M.supply) :
    Sat (mintTo w ctx amount) (fun w' => ∃ a l, ctx.Effect w amount a l w')
      (· ≠ .custom .counterInvariantViolation) := by
  refine (MintTo.validate_sat w ctx).bind fun a hv => ?_
  have ht : a.config.Tracks a.mint.supply := h _ _ hv.config (hv.config_mint ▸ hv.mint)
  refine .require (fun _ => nofun) fun hpos => ?_
  refine .require (fun _ => nofun) fun hunp => ?_
  refine .require (fun _ => nofun) fun hallowed => ?_
  refine .step (ensureSupplyTracked_of ht) ?_
  refine .okOr (fun _ => nofun) fun minted hminted => ?_
  obtain ⟨-, rfl⟩ := checkedAdd_eq_some.mp hminted
  refine .require (fun _ => nofun) fun hwithin => ?_
  refine .okOr (fun _ => nofun) fun newSupply hnew => ?_
  obtain ⟨-, rfl⟩ := checkedAdd_eq_some.mp hnew
  refine .require (fun _ => nofun) fun hcap => ?_
  refine .okOr (fun _ => nofun) fun totalMinted htotal => ?_
  obtain ⟨-, rfl⟩ := checkedAdd_eq_some.mp htotal
  refine Sat.bind (.mapError (fun l hl => token2022.minted hl) fun _ _ => nofun) fun l hl => ?_
  refine Sat.bind (.mapError (fun M hM => mint_ok hM) fun _ _ => nofun) fun M hM => ?_
  -- the call raised the supply by `amount`: both of the later checks pass
  have hsup : M.supply = a.mint.supply + amount := by
    rw [← supply_of hM, hl.supplies, if_pos rfl, supply_of hv.mint]
  refine .require_true hsup ?_
  have ht' : { a.config with totalMinted := a.config.totalMinted + amount }.Tracks
      (a.mint.supply + amount) := by
    unfold MintConfig.Tracks at ht ⊢
    dsimp only
    omega
  refine .step (ensureSupplyTracked_of ht') ?_
  refine .pure ⟨a, l, ?_⟩
  exact
    { valid := hv
      amount_pos := hpos
      unpaused := by simpa using hunp
      allowed := hallowed
      within := hwithin
      capped := by rw [supply_of hv.mint]; exact hcap
      minted := by rwa [hv.config_mint, ← hv.config_key] at hl
      result := rfl }

/-! ### `burn` -/

/-- A successful `burn`. -/
structure Burn.Effect (w : World) (ctx : Burn) (amount : ℕ) (c : MintConfig) (l : Ledger)
    (w' : World) : Prop where
  signer : ctx.owner.isSigner
  config : w.configs ctx.config = some c
  config_key : ctx.config = .config ctx.mint
  config_mint : c.mint = ctx.mint
  amount_pos : 0 < amount
  unpaused : c.paused = false
  burned : Burned w.ledger ⟨ctx.mint, ctx.source, ctx.owner⟩ ctx.owner amount l
  result : w' = { w with ledger := l }.setConfig ctx.config
    { c with totalBurned := c.totalBurned + amount }

theorem burn_sat {w : World} {ctx : Burn} {amount : ℕ}
    (h : ∀ c M, w.configs ctx.config = some c → w.ledger.mints c.mint = some M →
      c.Tracks M.supply) :
    Sat (burn w ctx amount) (fun w' => ∃ c l, ctx.Effect w amount c l w')
      (· ≠ .custom .counterInvariantViolation) := by
  refine Sat.bind (P := fun a => ctx.owner.isSigner ∧ w.ledger.mints ctx.mint = some a.mint ∧
    w.configs ctx.config = some a.config ∧ ctx.config = .config ctx.mint ∧
    a.config.mint = ctx.mint) ?_ ?_
  · refine .require (fun _ => nofun) fun hsigner => ?_
    refine .okOr (fun _ => nofun) fun mint hmint => ?_
    refine .okOr (fun _ => nofun) fun config hconfig => ?_
    refine .okOr (fun _ => nofun) fun source hsource => ?_
    refine .require (fun _ => nofun) fun hck => ?_
    refine .require (fun _ => nofun) fun hcm => ?_
    refine .require (fun _ => nofun) fun _ => ?_
    refine .require (fun _ => nofun) fun _ => ?_
    exact .pure ⟨hsigner, hmint, hconfig, hck, hcm⟩
  rintro a ⟨hsigner, hmint, hconfig, hck, hcm⟩
  have ht : a.config.Tracks a.mint.supply := h _ _ hconfig (hcm ▸ hmint)
  refine .require (fun _ => nofun) fun hpos => ?_
  refine .require (fun _ => nofun) fun hunp => ?_
  refine .step (ensureSupplyTracked_of ht) ?_
  refine .okOr (fun _ => nofun) fun totalBurned htotal => ?_
  obtain ⟨-, rfl⟩ := checkedAdd_eq_some.mp htotal
  refine Sat.bind (.mapError (fun l hl => token2022.burned hl) fun _ _ => nofun) fun l hl => ?_
  refine .okOr (fun _ => nofun) fun newSupply hnew => ?_
  obtain ⟨hle, rfl⟩ := checkedSub_eq_some.mp hnew
  refine Sat.bind (.mapError (fun M hM => mint_ok hM) fun _ _ => nofun) fun M hM => ?_
  have hsup : M.supply = a.mint.supply - amount := by
    have := hl.supplies ctx.mint
    rw [if_pos rfl, supply_of hmint, supply_of hM] at this
    omega
  refine .require_true hsup ?_
  have ht' : { a.config with totalBurned := a.config.totalBurned + amount }.Tracks
      (a.mint.supply - amount) := by
    unfold MintConfig.Tracks at ht ⊢
    dsimp only
    omega
  refine .step (ensureSupplyTracked_of ht') ?_
  exact .pure ⟨a.config, l, hsigner, hconfig, hck, hcm, hpos, by simpa using hunp, hl, rfl⟩

/-! ### `update_config` -/

/-- A successful `update_config`. -/
structure UpdateConfig.Effect (w : World) (ctx : UpdateConfig) (supplyCap : Option ℕ)
    (complianceAuthority pendingAdmin : Option Pubkey) (c : MintConfig) (w' : World) :
    Prop where
  signer : ctx.admin.isSigner
  config : w.configs ctx.config = some c
  config_key : ctx.config = .config ctx.mint
  config_mint : c.mint = ctx.mint
  admin : c.admin = ctx.admin
  capped : ∀ cap, supplyCap = some cap → w.ledger.supply ctx.mint ≤ cap ∧ cap ≤ maxSupplyCap
  nominee : ∀ k, pendingAdmin = some k → k ≠ .default ∧ k ≠ c.admin
  result : w' = w.setConfig ctx.config
    { c with supplyCap := supplyCap.getD c.supplyCap,
             complianceAuthority := complianceAuthority.getD c.complianceAuthority,
             pendingAdmin := pendingAdmin.or c.pendingAdmin }

theorem updateSupplyCap_sat {c : MintConfig} {supply : ℕ} (h : c.Tracks supply) :
    ∀ supplyCap : Option ℕ, Sat (updateSupplyCap c supply supplyCap)
      (fun c' => c' = { c with supplyCap := supplyCap.getD c.supplyCap } ∧
        ∀ cap, supplyCap = some cap → supply ≤ cap ∧ cap ≤ maxSupplyCap)
      (· ≠ .custom .counterInvariantViolation)
  | none => ⟨rfl, fun _ h => nomatch h⟩
  | some cap => by
      refine .require (fun _ => nofun) fun _ => ?_
      refine .require (fun _ => nofun) fun hmax => ?_
      refine .step (ensureSupplyTracked_of h) ?_
      refine .require (fun _ => nofun) fun hle => ?_
      refine .pure ⟨rfl, ?_⟩
      rintro _ ⟨⟩
      exact ⟨hle, hmax⟩

theorem updateComplianceAuthority_sat {c : MintConfig} :
    ∀ authority : Option Pubkey, Sat (updateComplianceAuthority c authority)
      (fun c' => c' = { c with complianceAuthority := authority.getD c.complianceAuthority })
      (· ≠ .custom .counterInvariantViolation)
  | none => rfl
  | some _ => .require (fun _ => nofun) fun _ => .pure rfl

theorem updatePendingAdmin_sat {c : MintConfig} :
    ∀ authority : Option Pubkey, Sat (updatePendingAdmin c authority)
      (fun c' => c' = { c with pendingAdmin := authority.or c.pendingAdmin } ∧
        ∀ k, authority = some k → k ≠ .default ∧ k ≠ c.admin)
      (· ≠ .custom .counterInvariantViolation)
  | none => ⟨rfl, fun _ h => nomatch h⟩
  | some _ => by
      refine .require (fun _ => nofun) fun hd => ?_
      refine .require (fun _ => nofun) fun ha => ?_
      refine .pure ⟨rfl, ?_⟩
      rintro _ ⟨⟩
      exact ⟨hd, ha⟩

theorem updateConfig_sat {w : World} {ctx : UpdateConfig} {supplyCap : Option ℕ}
    {complianceAuthority pendingAdmin : Option Pubkey}
    (h : ∀ c M, w.configs ctx.config = some c → w.ledger.mints c.mint = some M →
      c.Tracks M.supply) :
    Sat (updateConfig w ctx supplyCap complianceAuthority pendingAdmin)
      (fun w' => ∃ c, ctx.Effect w supplyCap complianceAuthority pendingAdmin c w')
      (· ≠ .custom .counterInvariantViolation) := by
  refine .require (fun _ => nofun) fun hsigner => ?_
  refine .okOr (fun _ => nofun) fun mint hmint => ?_
  refine .okOr (fun _ => nofun) fun c hc => ?_
  refine .require (fun _ => nofun) fun hck => ?_
  refine .require (fun _ => nofun) fun hcm => ?_
  refine .require (fun _ => nofun) fun hadmin => ?_
  refine .require (fun _ => nofun) fun _ => ?_
  refine (updateSupplyCap_sat (h c mint hc (hcm ▸ hmint)) supplyCap).bind ?_
  rintro _ ⟨rfl, hcap⟩
  refine (updateComplianceAuthority_sat complianceAuthority).bind ?_
  rintro _ rfl
  refine (updatePendingAdmin_sat pendingAdmin).bind ?_
  rintro _ ⟨rfl, hnominee⟩
  refine .pure ⟨c, hsigner, hc, hck, hcm, hadmin, ?_, hnominee, rfl⟩
  intro cap hsome
  rw [supply_of hmint]
  exact hcap cap hsome

/-! ### `set_pause` -/

/-- A successful `set_pause`. -/
structure SetPause.Effect (w : World) (ctx : SetPause) (paused : Bool) (c : MintConfig)
    (M : Mint) (p : PausableConfig) (w' : World) : Prop where
  signer : ctx.authority.isSigner
  mint : w.ledger.mints ctx.mint = some M
  config : w.configs ctx.config = some c
  config_key : ctx.config = .config ctx.mint
  config_mint : c.mint = ctx.mint
  pausable : M.pausable = some p
  changed : p.paused ≠ paused
  result : w' = { w with
    ledger := w.ledger.setMint ctx.mint { M with pausable := some { p with paused } } }.setConfig
      ctx.config { c with paused }

theorem pausableIsPaused_ok {l : Ledger} {m : Pubkey} {b : Bool}
    (h : pausableIsPaused l m = .ok b) :
    ∃ M p, l.mints m = some M ∧ M.pausable = some p ∧ p.paused = b := by
  simp only [pausableIsPaused, bind_ok_iff, okOr_ok_iff, pure_ok_iff] at h
  obtain ⟨M, hM, p, hp, hb⟩ := h
  exact ⟨M, p, mint_ok hM, hp, hb⟩

theorem pausableSet_ok {l l' : Ledger} {m authority signer : Pubkey} {paused : Bool}
    (h : l.pausableSet m authority paused signer = .ok l') :
    ∃ M p, l.mints m = some M ∧ M.pausable = some p ∧
      l' = l.setMint m { M with pausable := some { p with paused } } := by
  simp only [pausableSet, bind_ok_iff, okOr_ok_iff, pure_ok_iff] at h
  obtain ⟨M, hM, p, hp, _, -, hl⟩ := h
  exact ⟨M, p, mint_ok hM, hp, hl.symm⟩

theorem setPause_sat {w : World} {ctx : SetPause} {paused : Bool}
    (h : ∀ c M p, w.configs ctx.config = some c → w.ledger.mints c.mint = some M →
      M.pausable = some p → p.paused = c.paused) :
    Sat (setPause w ctx paused) (fun w' => ∃ c M p, ctx.Effect w paused c M p w')
      (· ≠ .custom .pauseStateDrift) := by
  refine .require (fun _ => nofun) fun hsigner => ?_
  refine .okOr (fun _ => nofun) fun M hM => ?_
  refine .okOr (fun _ => nofun) fun c hc => ?_
  refine .require (fun _ => nofun) fun hck => ?_
  refine .require (fun _ => nofun) fun hcm => ?_
  refine .require (fun _ => nofun) fun _ => ?_
  refine Sat.bind (.mapError (fun b hb => pausableIsPaused_ok hb) fun _ _ => nofun) ?_
  rintro _ ⟨_, p, hM', hp, rfl⟩
  obtain rfl := Option.some.inj (hM.symm.trans hM')
  refine .require_true (h c M p hc (hcm ▸ hM) hp) ?_
  refine .require (fun _ => nofun) fun hne => ?_
  refine Sat.bind (.mapError (fun l hl => pausableSet_ok hl) fun _ _ => nofun) ?_
  rintro _ ⟨_, _, hM', hp', rfl⟩
  obtain rfl := Option.some.inj (hM.symm.trans hM')
  obtain rfl := Option.some.inj (hp.symm.trans hp')
  refine Sat.bind (.mapError (fun b hb => pausableIsPaused_ok hb) fun _ _ => nofun) ?_
  rintro _ ⟨N, q, hN, hq, rfl⟩
  -- what is read back is what was written
  obtain rfl := Option.some.inj ((setMint_mints_self ..).symm.trans hN)
  obtain rfl := Option.some.inj hq
  refine .require_true rfl ?_
  exact .pure ⟨c, M, p, hsigner, hM, hc, hck, hcm, hp, hne, rfl⟩

/-! ### `set_wallet_policy` -/

/-- The state a status asks for. -/
def PolicyStatus.accountState : PolicyStatus → AccountState
  | .allowed => .initialized
  | .blocked => .frozen

/-- A successful `set_wallet_policy`. -/
structure SetWalletPolicy.Effect (w : World) (ctx : SetWalletPolicy) (status : PolicyStatus)
    (unixTimestamp : ℤ) (c : MintConfig) (a : TokenAccount) (w' : World) : Prop where
  signer : ctx.complianceAuthority.isSigner
  config : w.configs ctx.config = some c
  config_key : ctx.config = .config ctx.mint
  config_mint : c.mint = ctx.mint
  authority : c.complianceAuthority = ctx.complianceAuthority
  account : w.ledger.tokens ctx.tokenAccount = some a
  account_mint : a.mint = ctx.mint
  result : w' = { w with
    ledger := w.ledger.setToken ctx.tokenAccount { a with state := status.accountState }
    }.setWalletPolicy (.walletPolicy ctx.mint ctx.tokenAccount)
      { mint := ctx.mint, tokenAccount := ctx.tokenAccount, owner := a.owner, status,
        updatedAt := unixTimestamp, updatedBy := ctx.complianceAuthority }

theorem toggleFreeze_ok {before after : AccountState} {l l' : Ledger}
    {account mint authority signer : Pubkey}
    (h : toggleFreeze before after l account mint authority signer = .ok l') :
    ∃ a, l.tokens account = some a ∧ a.state = before ∧
      l' = l.setToken account { a with state := after } := by
  simp only [toggleFreeze, bind_ok_iff, require_ok_iff, pure_ok_iff] at h
  obtain ⟨a, ha, -, hs, -, -, -, -, -, -, -, -, hl⟩ := h
  exact ⟨a, token_ok ha, hs, hl.symm⟩

theorem setToken_self {l : Ledger} {k : Pubkey} {a : TokenAccount} (h : l.tokens k = some a) :
    l.setToken k a = l := by
  rw [setToken, ← h, Function.update_eq_self]

/-- Afterwards the account is in the state the status asks for, whichever call that took. -/
theorem alignFrozen_ok {l l' : Ledger} {ctx : SetWalletPolicy} {c : MintConfig}
    {status : PolicyStatus} (h : alignFrozen l ctx c status = .ok l') :
    ∃ a, l.tokens ctx.tokenAccount = some a ∧
      l' = l.setToken ctx.tokenAccount { a with state := status.accountState } := by
  simp only [alignFrozen, isFrozen, bind_ok_iff, pure_ok_iff] at h
  obtain ⟨_, ⟨a, ha, rfl⟩, h⟩ := h
  replace ha := token_ok ha
  cases status with
  | blocked =>
      split at h
      · obtain ⟨b, hb, -, hl⟩ := toggleFreeze_ok h
        exact ⟨b, hb, hl⟩
      · rename_i hsame
        have hf : a.state = .frozen := by
          simpa [PolicyStatus.isBlocked, TokenAccount.isFrozen] using hsame
        refine ⟨a, ha, ?_⟩
        rw [PolicyStatus.accountState, ← hf, setToken_self ha]
        exact (pure_ok_iff.mp h).symm
  | allowed =>
      split at h
      · obtain ⟨b, hb, -, hl⟩ := toggleFreeze_ok h
        exact ⟨b, hb, hl⟩
      · rename_i hsame
        have hf : a.state = .initialized := by
          cases hs : a.state with
          | initialized => rfl
          | frozen => simp [PolicyStatus.isBlocked, TokenAccount.isFrozen, hs] at hsame
        refine ⟨a, ha, ?_⟩
        rw [PolicyStatus.accountState, ← hf, setToken_self ha]
        exact (pure_ok_iff.mp h).symm

theorem setWalletPolicy_ok {w w' : World} {ctx : SetWalletPolicy} {status : PolicyStatus}
    {unixTimestamp : ℤ} (h : setWalletPolicy w ctx status unixTimestamp = .ok w') :
    ∃ c a, ctx.Effect w status unixTimestamp c a w' := by
  simp only [setWalletPolicy, requireSigner, load, requireSeeds, requireHasOne, ensure, invoke,
    bind_ok_iff, require_ok_iff, okOr_ok_iff, mapError_ok_iff, pure_ok_iff] at h
  obtain ⟨-, hsigner, -, -, c, hc, a, ha, -, hpk, -, hck, -, hcm, -, hauth, -, hm, l, hl, -, -, -,
    -, rfl⟩ := h
  obtain ⟨b, hb, rfl⟩ := alignFrozen_ok hl
  obtain rfl := Option.some.inj (ha.symm.trans hb)
  exact ⟨c, a, hsigner, hc, hck, hcm, hauth, ha, hm, by rw [hpk]⟩

/-! ### The others -/

/-- A successful `initialize_stablecoin`. -/
structure InitializeStablecoin.Effect (w : World) (ctx : InitializeStablecoin) (symbol : Symbol)
    (supplyCap : ℕ) (M : Mint) (c : MintConfig) (w' : World) : Prop where
  signer : ctx.payer.isSigner
  config_key : ctx.config = .config ctx.mint
  mint_key : ctx.mint = .mint symbol
  config_free : w.configs ctx.config = none
  mint_free : w.ledger.mints ctx.mint = none
  mintAuthority : M.mintAuthority = some ctx.config
  freezeAuthority : M.freezeAuthority = some ctx.config
  supply : M.supply = 0
  decimals : M.decimals = stablecoinDecimals
  defaultState : M.defaultState = .frozen
  pausable : M.pausable = some { authority := ctx.config, paused := false }
  supplyCap_le : supplyCap ≤ maxSupplyCap
  config : c =
    { admin := ctx.payer, pendingAdmin := none, complianceAuthority := ctx.payer,
      mint := ctx.mint, symbol, decimals := stablecoinDecimals, supplyCap, totalMinted := 0,
      totalBurned := 0, paused := false }
  result : w' = { w with ledger := w.ledger.setMint ctx.mint M }.setConfig ctx.config c

theorem initializeStablecoin_ok {w w' : World} {ctx : InitializeStablecoin} {symbol : Symbol}
    {name uri : List UInt8} {decimals supplyCap : ℕ}
    (h : initializeStablecoin w ctx symbol name uri decimals supplyCap = .ok w') :
    ∃ M c, ctx.Effect w symbol supplyCap M c w' := by
  simp only [initializeStablecoin, requireSigner, requireSeeds, requireFree, ensure, invoke,
    initializeMint2, bind_ok_iff, require_ok_iff, mapError_ok_iff, pure_ok_iff] at h
  obtain ⟨-, hsigner, -, hck, -, hfree, -, hmk, -, hdec, -, -, -, hcap, -, -, -, -, text, -, -, -,
    l, ⟨-, hmfree, rfl⟩, rfl⟩ := h
  subst hdec
  exact ⟨_, _, hsigner, hck, hmk, by simpa using hfree, hmfree, rfl, rfl, rfl, rfl, rfl, rfl, hcap,
    rfl, rfl⟩

/-- A successful `grant_minter`. -/
structure GrantMinter.Effect (w : World) (ctx : GrantMinter) (allowance : ℕ) (c : MintConfig)
    (w' : World) : Prop where
  signer : ctx.admin.isSigner
  config : w.configs ctx.config = some c
  admin : c.admin = ctx.admin
  minterRole_key : ctx.minterRole = .minterRole ctx.config ctx.authority
  minterRole_free : w.minterRoles ctx.minterRole = none
  allowance_pos : 0 < allowance
  result : w' = w.setMinterRole ctx.minterRole
    (some { config := ctx.config, authority := ctx.authority, allowance, minted := 0 })

theorem grantMinter_effect {w w' : World} {ctx : GrantMinter} {allowance : ℕ}
    (h : grantMinter w ctx allowance = .ok w') : ∃ c, ctx.Effect w allowance c w' := by
  simp only [grantMinter, requireSigner, load, requireSeeds, requireFree, ensure, bind_ok_iff,
    require_ok_iff, okOr_ok_iff, pure_ok_iff] at h
  obtain ⟨-, hsigner, c, hc, -, hk, -, hfree, -, -, -, hadmin, -, hpos, -, -, rfl⟩ := h
  exact ⟨c, hsigner, hc, hadmin, hk, by simpa using hfree, hpos, rfl⟩

theorem grantMinter_ok {w w' : World} {ctx : GrantMinter} {allowance : ℕ}
    (h : grantMinter w ctx allowance = .ok w') :
    w' = w.setMinterRole ctx.minterRole
      (some { config := ctx.config, authority := ctx.authority, allowance, minted := 0 }) := by
  obtain ⟨c, h⟩ := grantMinter_effect h
  exact h.result

/-- A successful `revoke_minter`. -/
structure RevokeMinter.Effect (w : World) (ctx : RevokeMinter) (c : MintConfig) (r : MinterRole)
    (w' : World) : Prop where
  signer : ctx.admin.isSigner
  config : w.configs ctx.config = some c
  admin : c.admin = ctx.admin
  minterRole : w.minterRoles ctx.minterRole = some r
  minterRole_config : r.config = ctx.config
  minterRole_authority : r.authority = ctx.authority
  result : w' = w.setMinterRole ctx.minterRole none

theorem revokeMinter_effect {w w' : World} {ctx : RevokeMinter}
    (h : revokeMinter w ctx = .ok w') : ∃ c r, ctx.Effect w c r w' := by
  simp only [revokeMinter, requireSigner, load, requireSeeds, ensure, bind_ok_iff,
    require_ok_iff, okOr_ok_iff, pure_ok_iff] at h
  obtain ⟨-, hsigner, c, hc, r, hr, -, -, -, hadmin, -, -, -, hrc, -, hra, rfl⟩ := h
  exact ⟨c, r, hsigner, hc, hadmin, hr, hrc, hra, rfl⟩

theorem revokeMinter_ok {w w' : World} {ctx : RevokeMinter} (h : revokeMinter w ctx = .ok w') :
    w' = w.setMinterRole ctx.minterRole none := by
  obtain ⟨c, r, h⟩ := revokeMinter_effect h
  exact h.result

/-- A successful `accept_admin`. -/
structure AcceptAdmin.Effect (w : World) (ctx : AcceptAdmin) (c : MintConfig) (w' : World) :
    Prop where
  signer : ctx.pendingAdmin.isSigner
  config : w.configs ctx.config = some c
  pendingAdmin : c.pendingAdmin = some ctx.pendingAdmin
  result : w' = w.setConfig ctx.config { c with admin := ctx.pendingAdmin, pendingAdmin := none }

theorem acceptAdmin_effect {w w' : World} {ctx : AcceptAdmin} (h : acceptAdmin w ctx = .ok w') :
    ∃ c, ctx.Effect w c w' := by
  simp only [acceptAdmin, requireSigner, load, requireSeeds, ensure, bind_ok_iff,
    require_ok_iff, okOr_ok_iff, pure_ok_iff] at h
  obtain ⟨-, hsigner, c, hc, -, -, -, hp, rfl⟩ := h
  exact ⟨c, hsigner, hc, hp, rfl⟩

theorem acceptAdmin_ok {w w' : World} {ctx : AcceptAdmin} (h : acceptAdmin w ctx = .ok w') :
    ∃ c, w.configs ctx.config = some c ∧ c.pendingAdmin = some ctx.pendingAdmin ∧
      w' = w.setConfig ctx.config { c with admin := ctx.pendingAdmin, pendingAdmin := none } := by
  obtain ⟨c, h⟩ := acceptAdmin_effect h
  exact ⟨c, h.config, h.pendingAdmin, h.result⟩

end StablecoinAmm
