import StablecoinAmm.Locality.Cells
import StablecoinAmm.System.Step

/-!
# Locality — what the instructions name

The accounts of each instruction (`Action.names`), and those among them that its `Accounts` struct
declares mutable or creates (`Action.mutable`).  A handler reads nothing but what it names: it does
the same in a splice of two worlds as in the first of them (`step_splice`).
-/

namespace StablecoinAmm
open Support Ledger

/-! ### The accounts of an instruction -/

def PoolAccounts.names (ctx : PoolAccounts) : List Pubkey :=
  [ctx.user, ctx.pool, ctx.mintA, ctx.mintB, ctx.configA, ctx.configB, ctx.vaultA, ctx.vaultB,
    ctx.lpMint, ctx.userA, ctx.userB, ctx.policyA, ctx.policyB]

def LiquidityAccounts.names (ctx : LiquidityAccounts) : List Pubkey :=
  ctx.lockedLp :: ctx.userLp :: ctx.toPoolAccounts.names

namespace Action

/-- The accounts an instruction is given, programs left out. -/
def names : Action → List Pubkey
  | .initializeStablecoin ctx .. => [ctx.payer, ctx.mint, ctx.config]
  | .grantMinter ctx _ => [ctx.admin, ctx.config, ctx.authority, ctx.minterRole]
  | .revokeMinter ctx => [ctx.admin, ctx.config, ctx.authority, ctx.minterRole]
  | .setWalletPolicy ctx .. =>
      [ctx.complianceAuthority, ctx.mint, ctx.config, ctx.tokenAccount, ctx.walletPolicy]
  | .mintTo ctx _ =>
      [ctx.minter, ctx.mint, ctx.config, ctx.minterRole, ctx.destination, ctx.walletPolicy]
  | .burn ctx _ => [ctx.owner, ctx.mint, ctx.config, ctx.source]
  | .setPause ctx _ => [ctx.authority, ctx.mint, ctx.config]
  | .updateConfig ctx .. => [ctx.admin, ctx.mint, ctx.config]
  | .acceptAdmin ctx => [ctx.pendingAdmin, ctx.config]
  | .initializePool ctx _ =>
      [ctx.payer, ctx.mintA, ctx.mintB, ctx.configA, ctx.configB, ctx.pool, ctx.vaultA, ctx.vaultB,
        ctx.lpMint, ctx.lockedLp]
  | .addLiquidity ctx .. => ctx.names
  | .removeLiquidity ctx .. => ctx.names
  | .swap ctx .. => ctx.names
  | .createAccount account mint owner _ => [account, mint, owner]
  | .transfer c .. => [c.source, c.mint, c.destination, c.authority]
  | .burnDirect c .. => [c.source, c.mint, c.authority]
  | .setOwner account authority _ => [account, authority]
  | .closeAccount account authority => [account, authority]

/-- Those declared `mut`, or initialized. -/
def mutable : Action → List Pubkey
  | .initializeStablecoin ctx .. => [ctx.payer, ctx.mint, ctx.config]
  | .grantMinter ctx _ => [ctx.admin, ctx.minterRole]
  | .revokeMinter ctx => [ctx.admin, ctx.minterRole]
  | .setWalletPolicy ctx .. => [ctx.complianceAuthority, ctx.tokenAccount, ctx.walletPolicy]
  | .mintTo ctx _ => [ctx.mint, ctx.config, ctx.minterRole, ctx.destination]
  | .burn ctx _ => [ctx.mint, ctx.config, ctx.source]
  | .setPause ctx _ => [ctx.mint, ctx.config]
  | .updateConfig ctx .. => [ctx.config]
  | .acceptAdmin ctx => [ctx.config]
  | .initializePool ctx _ =>
      [ctx.payer, ctx.pool, ctx.vaultA, ctx.vaultB, ctx.lpMint, ctx.lockedLp]
  | .addLiquidity ctx .. =>
      [ctx.pool, ctx.vaultA, ctx.vaultB, ctx.lpMint, ctx.lockedLp, ctx.userA, ctx.userB,
        ctx.userLp]
  -- a withdrawal only reads the locked account, a swap only reads the LP mint
  | .removeLiquidity ctx .. =>
      [ctx.pool, ctx.vaultA, ctx.vaultB, ctx.lpMint, ctx.userA, ctx.userB, ctx.userLp]
  | .swap ctx .. => [ctx.pool, ctx.vaultA, ctx.vaultB, ctx.userA, ctx.userB]
  | .createAccount account .. => [account]
  | .transfer c .. => [c.source, c.destination]
  | .burnDirect c .. => [c.source, c.mint]
  | .setOwner account .. => [account]
  | .closeAccount account _ => [account]

/-- Neither instruction may write what the other names. -/
def Independent (a b : Action) : Prop :=
  (∀ k ∈ a.mutable, k ∉ b.names) ∧ ∀ k ∈ b.mutable, k ∉ a.names

instance (a b : Action) : Decidable (a.Independent b) :=
  inferInstanceAs (Decidable ((∀ k ∈ a.mutable, k ∉ b.names) ∧ ∀ k ∈ b.mutable, k ∉ a.names))

end Action

section
variable {ks : List Pubkey} {w v : World}

/-! ### The stablecoin program -/

theorem initializeStablecoin_splice {ctx : InitializeStablecoin} {symbol : Symbol}
    {name uri : List UInt8} {decimals supplyCap : ℕ}
    (hks : (Action.initializeStablecoin ctx symbol name uri decimals supplyCap).names ⊆ ks) :
    initializeStablecoin (World.splice ks w v) ctx symbol name uri decimals supplyCap =
      (fun w' => World.splice ks w' v) <$>
        initializeStablecoin w ctx symbol name uri decimals supplyCap := by
  simp only [Action.names, List.cons_subset] at hks
  obtain ⟨-, hmint, hconfig, -⟩ := hks
  simp (disch := assumption) only [initializeStablecoin, World.splice_configs,
    World.splice_ledger, splice_mints, initializeMint2_splice, invoke_map, bind_map_left,
    World.setLedger_splice, World.setConfig_splice, map_bind, map_pure]

theorem grantMinter_splice {ctx : GrantMinter} {allowance : ℕ}
    (hks : (Action.grantMinter ctx allowance).names ⊆ ks) :
    grantMinter (World.splice ks w v) ctx allowance =
      (fun w' => World.splice ks w' v) <$> grantMinter w ctx allowance := by
  simp only [Action.names, List.cons_subset] at hks
  obtain ⟨-, hconfig, -, hrole, -⟩ := hks
  simp (disch := assumption) only [grantMinter, World.splice_configs, World.splice_minterRoles,
    World.setMinterRole_splice, map_bind, map_pure]

theorem revokeMinter_splice {ctx : RevokeMinter} (hks : (Action.revokeMinter ctx).names ⊆ ks) :
    revokeMinter (World.splice ks w v) ctx =
      (fun w' => World.splice ks w' v) <$> revokeMinter w ctx := by
  simp only [Action.names, List.cons_subset] at hks
  obtain ⟨-, hconfig, -, hrole, -⟩ := hks
  simp (disch := assumption) only [revokeMinter, World.splice_configs, World.splice_minterRoles,
    World.setMinterRole_splice, map_bind, map_pure]

theorem alignFrozen_splice {l m : Ledger} {ctx : SetWalletPolicy} {c : MintConfig}
    {status : PolicyStatus} (hmint : ctx.mint ∈ ks) (htoken : ctx.tokenAccount ∈ ks) :
    alignFrozen (Ledger.splice ks l m) ctx c status =
      (fun l' => Ledger.splice ks l' m) <$> alignFrozen l ctx c status := by
  simp (disch := assumption) only [alignFrozen, isFrozen, token_splice, freezeAccount, thawAccount,
    toggleFreeze_splice, map_bind, map_ite, map_pure]

theorem setWalletPolicy_splice {ctx : SetWalletPolicy} {status : PolicyStatus}
    {unixTimestamp : ℤ} (hks : (Action.setWalletPolicy ctx status unixTimestamp).names ⊆ ks) :
    setWalletPolicy (World.splice ks w v) ctx status unixTimestamp =
      (fun w' => World.splice ks w' v) <$> setWalletPolicy w ctx status unixTimestamp := by
  simp only [Action.names, List.cons_subset] at hks
  obtain ⟨-, hmint, hconfig, htoken, hpolicy, -⟩ := hks
  simp (disch := assumption) only [setWalletPolicy, isFrozen, World.splice_ledger,
    World.splice_configs, splice_mints, splice_tokens, alignFrozen_splice, token_splice, invoke_map,
    bind_map_left, World.setLedger_splice, World.setWalletPolicy_splice, map_bind, map_pure]

theorem mintTo_splice {ctx : MintTo} {amount : ℕ} (hks : (Action.mintTo ctx amount).names ⊆ ks) :
    mintTo (World.splice ks w v) ctx amount =
      (fun w' => World.splice ks w' v) <$> mintTo w ctx amount := by
  simp only [Action.names, List.cons_subset] at hks
  obtain ⟨-, hmint, hconfig, hrole, hdest, hpolicy, -⟩ := hks
  have hval : ctx.validate (World.splice ks w v) = ctx.validate w := by
    simp (disch := assumption) only [MintTo.validate, World.splice_ledger, splice_mints,
      splice_tokens, World.splice_configs, World.splice_minterRoles, World.splice_walletPolicies]
  simp (disch := assumption) only [mintTo, hval, World.splice_ledger, mintToChecked_splice,
    invoke_map, bind_map_left, mint_splice, World.setLedger_splice, World.setMinterRole_splice,
    World.setConfig_splice, map_bind, map_pure]

theorem burn_splice {ctx : Burn} {amount : ℕ} (hks : (Action.burn ctx amount).names ⊆ ks) :
    burn (World.splice ks w v) ctx amount =
      (fun w' => World.splice ks w' v) <$> burn w ctx amount := by
  simp only [Action.names, List.cons_subset] at hks
  obtain ⟨-, hmint, hconfig, hsource, -⟩ := hks
  have hval : ctx.validate (World.splice ks w v) = ctx.validate w := by
    simp (disch := assumption) only [Burn.validate, World.splice_ledger, splice_mints,
      splice_tokens, World.splice_configs]
  simp (disch := assumption) only [burn, hval, World.splice_ledger, burnChecked_splice, invoke_map,
    bind_map_left, mint_splice, World.setLedger_splice, World.setConfig_splice, map_bind, map_pure]

theorem setPause_splice {ctx : SetPause} {paused : Bool}
    (hks : (Action.setPause ctx paused).names ⊆ ks) :
    setPause (World.splice ks w v) ctx paused =
      (fun w' => World.splice ks w' v) <$> setPause w ctx paused := by
  simp only [Action.names, List.cons_subset] at hks
  obtain ⟨-, hmint, hconfig, -⟩ := hks
  simp (disch := assumption) only [setPause, pausableIsPaused, World.splice_ledger,
    World.splice_configs, splice_mints, pausableSet_splice, invoke_map, bind_map_left, mint_splice,
    World.setLedger_splice, World.setConfig_splice, map_bind, map_pure]

theorem updateConfig_splice {ctx : UpdateConfig} {supplyCap : Option ℕ}
    {complianceAuthority pendingAdmin : Option Pubkey}
    (hks : (Action.updateConfig ctx supplyCap complianceAuthority pendingAdmin).names ⊆ ks) :
    updateConfig (World.splice ks w v) ctx supplyCap complianceAuthority pendingAdmin =
      (fun w' => World.splice ks w' v) <$>
        updateConfig w ctx supplyCap complianceAuthority pendingAdmin := by
  simp only [Action.names, List.cons_subset] at hks
  obtain ⟨-, hmint, hconfig, -⟩ := hks
  simp (disch := assumption) only [updateConfig, World.splice_ledger, World.splice_configs,
    splice_mints, World.setConfig_splice, map_bind, map_pure]

theorem acceptAdmin_splice {ctx : AcceptAdmin} (hks : (Action.acceptAdmin ctx).names ⊆ ks) :
    acceptAdmin (World.splice ks w v) ctx =
      (fun w' => World.splice ks w' v) <$> acceptAdmin w ctx := by
  simp only [Action.names, List.cons_subset] at hks
  obtain ⟨-, hconfig, -⟩ := hks
  simp (disch := assumption) only [acceptAdmin, World.splice_configs, World.setConfig_splice,
    map_bind, map_pure]

/-! ### The pools -/

theorem createVault_splice {l m : Ledger} {vault mint pool : Pubkey} (hvault : vault ∈ ks)
    (hmint : mint ∈ ks) :
    createVault (Ledger.splice ks l m) vault mint pool =
      (fun l' => Ledger.splice ks l' m) <$> createVault l vault mint pool := by
  simp (disch := assumption) only [createVault, mint_splice, splice_tokens,
    initializeAccount3_splice, invoke_map, map_bind]

theorem initializePool_splice {ctx : InitializePool} {feeBps : ℕ}
    (hks : (Action.initializePool ctx feeBps).names ⊆ ks) :
    initializePool (World.splice ks w v) ctx feeBps =
      (fun w' => World.splice ks w' v) <$> initializePool w ctx feeBps := by
  simp only [Action.names, List.cons_subset] at hks
  obtain ⟨-, hmintA, hmintB, hconfigA, hconfigB, hpool, hvaultA, hvaultB, hlp, hlocked, -⟩ := hks
  simp (disch := assumption) only [initializePool, World.splice_ledger, World.splice_configs,
    World.splice_pools, World.splice_addressBytes, splice_mints, splice_tokens,
    createVault_splice, initializeMint2_splice, initializeAccount3_splice, invoke_map,
    bind_map_left, World.setLedger_splice, World.setPool_splice, map_bind, map_pure]

theorem PoolAccounts.load_splice {ctx : PoolAccounts} (hks : ctx.names ⊆ ks) :
    ctx.load (World.splice ks w v) = ctx.load w := by
  simp only [PoolAccounts.names, List.cons_subset] at hks
  obtain ⟨-, hpool, hmintA, hmintB, hconfigA, hconfigB, hvaultA, hvaultB, hlp, huserA, huserB,
    hpolicyA, hpolicyB, -⟩ := hks
  simp (disch := assumption) only [PoolAccounts.load, World.splice_pools, World.splice_ledger,
    World.splice_configs, World.splice_walletPolicies, splice_mints, splice_tokens]

theorem PoolAccounts.validate_splice {ctx : PoolAccounts} (hks : ctx.names ⊆ ks) :
    ctx.validate (World.splice ks w v) = ctx.validate w := by
  rw [PoolAccounts.validate, PoolAccounts.validate, load_splice hks]

theorem LiquidityAccounts.validate_splice {ctx : LiquidityAccounts} (hks : ctx.names ⊆ ks) :
    ctx.validate (World.splice ks w v) = ctx.validate w := by
  obtain ⟨hlocked, huserLp, hpool⟩ := (by simpa only [LiquidityAccounts.names,
    List.cons_subset] using hks : ctx.lockedLp ∈ ks ∧ ctx.userLp ∈ ks ∧
      ctx.toPoolAccounts.names ⊆ ks)
  simp (disch := assumption) only [LiquidityAccounts.validate, PoolAccounts.load_splice hpool,
    World.splice_ledger, splice_tokens]

theorem mintLocked_splice {l m : Ledger} {ctx : LiquidityAccounts} {P : Pool}
    {lpToLock lpDecimals : ℕ} (hlp : ctx.lpMint ∈ ks) (hlocked : ctx.lockedLp ∈ ks) :
    mintLocked (Ledger.splice ks l m) ctx P lpToLock lpDecimals =
      (fun l' => Ledger.splice ks l' m) <$> mintLocked l ctx P lpToLock lpDecimals := by
  simp (disch := assumption) only [mintLocked, mintToChecked_splice, map_ite, map_pure]

theorem addLiquidity_splice {ctx : LiquidityAccounts}
    {amountADesired amountBDesired amountAMin amountBMin minLpOut : ℕ} (hks : ctx.names ⊆ ks) :
    addLiquidity (World.splice ks w v) ctx amountADesired amountBDesired amountAMin amountBMin
        minLpOut =
      (fun w' => World.splice ks w' v) <$>
        addLiquidity w ctx amountADesired amountBDesired amountAMin amountBMin minLpOut := by
  have hval := LiquidityAccounts.validate_splice (w := w) (v := v) hks
  simp only [LiquidityAccounts.names, PoolAccounts.names, List.cons_subset] at hks
  obtain ⟨hlocked, huserLp, -, hpool, hmintA, hmintB, -, -, hvaultA, hvaultB, hlp, huserA,
    huserB, -⟩ := hks
  simp (disch := assumption) only [addLiquidity, hval, World.splice_ledger, token_splice,
    mint_splice, transferChecked_splice, mintLocked_splice, mintToChecked_splice, invoke_map,
    bind_map_left, World.setLedger_splice, World.setPool_splice, map_bind, map_pure]

theorem removeLiquidity_splice {ctx : LiquidityAccounts} {lpAmount minAOut minBOut : ℕ}
    (hks : ctx.names ⊆ ks) :
    removeLiquidity (World.splice ks w v) ctx lpAmount minAOut minBOut =
      (fun w' => World.splice ks w' v) <$> removeLiquidity w ctx lpAmount minAOut minBOut := by
  have hval := LiquidityAccounts.validate_splice (w := w) (v := v) hks
  simp only [LiquidityAccounts.names, PoolAccounts.names, List.cons_subset] at hks
  obtain ⟨hlocked, huserLp, -, hpool, hmintA, hmintB, -, -, hvaultA, hvaultB, hlp, huserA,
    huserB, -⟩ := hks
  simp (disch := assumption) only [removeLiquidity, hval, World.splice_ledger, token_splice,
    mint_splice, transferChecked_splice, burnChecked_splice, invoke_map, bind_map_left,
    World.setLedger_splice, World.setPool_splice, map_bind, map_pure]

theorem swap_splice {ctx : PoolAccounts} {direction : SwapDirection}
    {amountIn minAmountOut : ℕ} (hks : ctx.names ⊆ ks) :
    swap (World.splice ks w v) ctx direction amountIn minAmountOut =
      (fun w' => World.splice ks w' v) <$> swap w ctx direction amountIn minAmountOut := by
  have hval := PoolAccounts.validate_splice (w := w) (v := v) hks
  simp only [PoolAccounts.names, List.cons_subset] at hks
  obtain ⟨-, hpool, hmintA, hmintB, -, -, hvaultA, hvaultB, -, huserA, huserB, -⟩ := hks
  cases direction <;>
    simp (disch := assumption) only [swap, hval, PoolAccounts.transferIn,
      PoolAccounts.transferOut, World.splice_ledger, token_splice, transferChecked_splice,
      invoke_map, bind_map_left, World.setLedger_splice, World.setPool_splice, map_bind, map_pure]

/-! ### A step -/

theorem mapError_map {ε ε' α β : Type} (g : ε → ε') (f : α → β) (x : Except ε α) :
    (f <$> x).mapError g = f <$> x.mapError g := by
  cases x <;> rfl

theorem direct_splice {signer : Pubkey} {x : Except TokenError Ledger} :
    (World.splice ks w v).direct signer ((fun l => Ledger.splice ks l v.ledger) <$> x) =
      (fun w' => World.splice ks w' v) <$> w.direct signer x := by
  simp only [World.direct, mapError_map, bind_map_left, World.setLedger_splice, map_bind, map_pure]

/-- **An instruction depends on no account that it does not name.** -/
theorem step_splice {a : Action} (hks : a.names ⊆ ks) :
    step (World.splice ks w v) a = (fun w' => World.splice ks w' v) <$> step w a := by
  cases a with
  | initializeStablecoin => rw [step, step, initializeStablecoin_splice hks, mapError_map]
  | grantMinter => rw [step, step, grantMinter_splice hks, mapError_map]
  | revokeMinter => rw [step, step, revokeMinter_splice hks, mapError_map]
  | setWalletPolicy => rw [step, step, setWalletPolicy_splice hks, mapError_map]
  | mintTo => rw [step, step, mintTo_splice hks, mapError_map]
  | burn => rw [step, step, burn_splice hks, mapError_map]
  | setPause => rw [step, step, setPause_splice hks, mapError_map]
  | updateConfig => rw [step, step, updateConfig_splice hks, mapError_map]
  | acceptAdmin => rw [step, step, acceptAdmin_splice hks, mapError_map]
  | initializePool => rw [step, step, initializePool_splice hks, mapError_map]
  | addLiquidity => rw [step, step, addLiquidity_splice hks, mapError_map]
  | removeLiquidity => rw [step, step, removeLiquidity_splice hks, mapError_map]
  | swap => rw [step, step, swap_splice hks, mapError_map]
  -- sent to Token-2022 directly
  | createAccount =>
      simp only [Action.names, List.cons_subset] at hks
      obtain ⟨haccount, hmint, -⟩ := hks
      rw [step, step, World.splice_ledger, initializeAccount3_splice haccount hmint, direct_splice]
  | transfer =>
      simp only [Action.names, List.cons_subset] at hks
      obtain ⟨hsource, hmint, hdestination, -⟩ := hks
      rw [step, step, World.splice_ledger, transferChecked_splice hsource hmint hdestination,
        direct_splice]
  | burnDirect =>
      simp only [Action.names, List.cons_subset] at hks
      obtain ⟨hsource, hmint, -⟩ := hks
      rw [step, step, World.splice_ledger, burnChecked_splice hmint hsource, direct_splice]
  | setOwner =>
      simp only [Action.names, List.cons_subset] at hks
      rw [step, step, World.splice_ledger, setOwner_splice hks.1, direct_splice]
  | closeAccount =>
      simp only [Action.names, List.cons_subset] at hks
      rw [step, step, World.splice_ledger, closeAccount_splice hks.1, direct_splice]

end

end StablecoinAmm
