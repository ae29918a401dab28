import StablecoinAmm.Amm.Traces
import StablecoinAmm.System.Events
import StablecoinAmm.System.History

/-!
# Events — an index built from the log

An off-chain index knows the programs' accounts from their events alone.  `Index.apply` is how
it takes in one event: it derives the addresses the event leaves out, and it knows what a new
account starts with.  `log_rebuilds` says that this is enough: at every moment of every history
the index holds exactly the accounts of both programs, from whatever moment it starts.
-/

namespace StablecoinAmm
open Support Ledger

/-! ### The index -/

/-- The accounts of both programs, by address. -/
structure Index where
  configs : Pubkey → Option MintConfig
  minterRoles : Pubkey → Option MinterRole
  walletPolicies : Pubkey → Option WalletPolicy
  pools : Pubkey → Option Pool

def World.index (w : World) : Index := ⟨w.configs, w.minterRoles, w.walletPolicies, w.pools⟩

namespace Index

def empty : Index := ⟨fun _ => none, fun _ => none, fun _ => none, fun _ => none⟩

def setConfig (i : Index) (k : Pubkey) (c : MintConfig) : Index :=
  { i with configs := Function.update i.configs k (some c) }

def setMinterRole (i : Index) (k : Pubkey) (r : Option MinterRole) : Index :=
  { i with minterRoles := Function.update i.minterRoles k r }

def setWalletPolicy (i : Index) (k : Pubkey) (p : WalletPolicy) : Index :=
  { i with walletPolicies := Function.update i.walletPolicies k (some p) }

def setPool (i : Index) (k : Pubkey) (P : Pool) : Index :=
  { i with pools := Function.update i.pools k (some P) }

/-- Rewrites the configuration of the mint `m`, if there is one. -/
def onConfig (i : Index) (m : Pubkey) (f : MintConfig → MintConfig) : Index :=
  { i with configs := Function.update i.configs (.config m) ((i.configs (.config m)).map f) }

def onMinterRole (i : Index) (k : Pubkey) (f : MinterRole → MinterRole) : Index :=
  { i with minterRoles := Function.update i.minterRoles k ((i.minterRoles k).map f) }

def onPool (i : Index) (k : Pubkey) (f : Pool → Pool) : Index :=
  { i with pools := Function.update i.pools k ((i.pools k).map f) }

/-- Takes in an event of the stablecoin program. -/
def applyStablecoin (i : Index) : StablecoinEvent → Index
  | .stablecoinInitialized mint config admin symbol decimals supplyCap =>
      i.setConfig config
        { admin, pendingAdmin := none, complianceAuthority := admin, mint, symbol, decimals,
          supplyCap, totalMinted := 0, totalBurned := 0, paused := false }
  | .minterGranted config authority allowance =>
      i.setMinterRole (.minterRole config authority)
        (some { config, authority, allowance, minted := 0 })
  | .minterRevoked config authority _ => i.setMinterRole (.minterRole config authority) none
  | .walletPolicyChanged mint tokenAccount owner status updatedBy updatedAt =>
      i.setWalletPolicy (.walletPolicy mint tokenAccount)
        { mint, tokenAccount, owner, status, updatedAt, updatedBy }
  | .tokensMinted mint minter _ amount minterMinted _ =>
      (i.onMinterRole (.minterRole (.config mint) minter) fun r =>
        { r with minted := minterMinted }).onConfig mint fun c =>
          { c with totalMinted := c.totalMinted + amount }
  | .tokensBurned mint _ _ amount _ =>
      i.onConfig mint fun c => { c with totalBurned := c.totalBurned + amount }
  | .pauseChanged mint _ paused => i.onConfig mint fun c => { c with paused }
  | .configUpdated mint admin supplyCap complianceAuthority pendingAdmin =>
      i.onConfig mint fun c => { c with admin, supplyCap, complianceAuthority, pendingAdmin }
  | .adminAccepted mint _ admin =>
      i.onConfig mint fun c => { c with admin, pendingAdmin := none }

/-- Takes in an event of the AMM program. -/
def applyAmm (i : Index) : AmmEvent → Index
  | .poolInitialized pool mintA mintB lpMint feeBps decimals =>
      i.setPool pool
        { mintA, mintB, vaultA := .vault pool mintA, vaultB := .vault pool mintB, lpMint,
          lockedLp := .lockedLp pool, reserveA := 0, reserveB := 0, feeBps, decimals }
  | .liquidityAdded pool _ _ _ _ reserveA reserveB _
  | .liquidityRemoved pool _ _ _ _ reserveA reserveB _
  | .swapExecuted pool _ _ _ _ reserveA reserveB =>
      i.onPool pool fun P => { P with reserveA, reserveB }

def apply (i : Index) : Event → Index
  | .stablecoin e => i.applyStablecoin e
  | .amm e => i.applyAmm e

variable {i : Index}

theorem onConfig_of {m : Pubkey} {c : MintConfig} (h : i.configs (.config m) = some c)
    (f : MintConfig → MintConfig) : i.onConfig m f = i.setConfig (.config m) (f c) := by
  rw [onConfig, h]; rfl

theorem onMinterRole_of {k : Pubkey} {r : MinterRole} (h : i.minterRoles k = some r)
    (f : MinterRole → MinterRole) : i.onMinterRole k f = i.setMinterRole k (some (f r)) := by
  rw [onMinterRole, h]; rfl

theorem onPool_of {k : Pubkey} {P : Pool} (h : i.pools k = some P) (f : Pool → Pool) :
    i.onPool k f = i.setPool k (f P) := by
  rw [onPool, h]; rfl

end Index

/-! ### One step -/

/-- The action wrote one event if it is an instruction and none if it is not, and the index
follows. -/
structure World.Recorded (w : World) (a : Action) (w' : World) : Prop where
  length : (a.emitted w).length = if a.isInstruction then 1 else 0
  index : w'.index = (a.emitted w).foldl Index.apply w.index

section
variable {w w' : World}

theorem World.Recorded.one {a : Action} {e : Event} (ha : a.isInstruction)
    (he : a.emitted w = [e]) (h : w'.index = w.index.apply e) : w.Recorded a w' where
  length := by rw [he, if_pos ha]; rfl
  index := by rw [he]; exact h

/-- Outsiders reach no account of the programs. -/
theorem World.Recorded.silent {a : Action} (ha : a.isInstruction = false)
    (he : a.emitted w = []) (h : w'.index = w.index) : w.Recorded a w' where
  length := by rw [he, ha]; rfl
  index := by rw [he]; exact h

theorem initializeStablecoin_recorded {ctx : InitializeStablecoin} {symbol : Symbol}
    {name uri : List UInt8} {decimals supplyCap : ℕ}
    (h : initializeStablecoin w ctx symbol name uri decimals supplyCap = .ok w') :
    w.Recorded (.initializeStablecoin ctx symbol name uri decimals supplyCap) w' := by
  simp only [initializeStablecoin, bind_ok_iff, pure_ok_iff] at h
  obtain ⟨-, -, -, -, -, -, -, -, -, -, -, -, -, -, -, -, -, -, -, -, -, -, l, -, rfl⟩ := h
  exact .one rfl rfl rfl

theorem grantMinter_recorded {ctx : GrantMinter} {allowance : ℕ}
    (h : grantMinter w ctx allowance = .ok w') : w.Recorded (.grantMinter ctx allowance) w' := by
  obtain ⟨c, h⟩ := grantMinter_effect h
  apply World.Recorded.one rfl rfl
  rw [h.result, h.minterRole_key]; rfl

theorem revokeMinter_recorded {ctx : RevokeMinter} (h : revokeMinter w ctx = .ok w') :
    w.Recorded (.revokeMinter ctx) w' := by
  simp only [revokeMinter, requireSeeds, load, bind_ok_iff, require_ok_iff, okOr_ok_iff,
    pure_ok_iff] at h
  obtain ⟨-, -, c, -, r, hr, -, -, -, -, -, hkey, -, -, -, -, rfl⟩ := h
  apply World.Recorded.one rfl
  · simp only [Action.emitted, RevokeMinter.emitted, hr]; rfl
  · rw [hkey]; rfl

theorem setWalletPolicy_recorded {ctx : SetWalletPolicy} {status : PolicyStatus}
    {unixTimestamp : ℤ} (h : setWalletPolicy w ctx status unixTimestamp = .ok w') :
    w.Recorded (.setWalletPolicy ctx status unixTimestamp) w' := by
  obtain ⟨c, a, h⟩ := setWalletPolicy_ok h
  apply World.Recorded.one rfl
  · simp only [Action.emitted, SetWalletPolicy.emitted, h.account]; rfl
  · rw [h.result]; rfl

theorem mintTo_recorded {ctx : MintTo} {amount : ℕ} (h : mintTo w ctx amount = .ok w') :
    w.Recorded (.mintTo ctx amount) w' := by
  simp only [mintTo, bind_ok_iff, okOr_ok_iff, pure_ok_iff] at h
  obtain ⟨a, ha, -, -, -, -, -, -, -, -, minted, hminted, -, -, newSupply, hnew, -, -, total, htotal,
    l, -, _, -, -, -, -, -, rfl⟩ := h
  have hv := (ctx.validate_sat w).ok ha
  obtain ⟨-, rfl⟩ := checkedAdd_eq_some.mp htotal
  apply World.Recorded.one rfl
  · simp only [Action.emitted, MintTo.emitted, hv.minterRole, hv.mint, hminted, hnew,
      Option.bind_eq_bind, Option.bind_some]; rfl
  · have hconfig := hv.config
    have hrole := hv.minterRole
    rw [hv.minterRole_key] at hrole
    rw [hv.minterRole_key]
    rw [hv.config_key] at hconfig hrole ⊢
    simp only [Index.apply, Index.applyStablecoin]
    rw [Index.onMinterRole_of hrole, Index.onConfig_of (c := a.config) hconfig]
    rfl

theorem burn_recorded {ctx : Burn} {amount : ℕ} (h : burn w ctx amount = .ok w') :
    w.Recorded (.burn ctx amount) w' := by
  simp only [burn, Burn.validate, requireSeeds, load, bind_ok_iff, require_ok_iff, okOr_ok_iff,
    pure_ok_iff] at h
  obtain ⟨_, ⟨-, -, M, hM, c, hc, src, -, -, hkey, -, -, -, -, -, -, rfl⟩, -, -, -, -, -, -, total,
    htotal, l, -, newSupply, hnew, _, -, -, -, -, -, rfl⟩ := h
  obtain ⟨-, rfl⟩ := checkedAdd_eq_some.mp htotal
  apply World.Recorded.one rfl
  · simp only [Action.emitted, Burn.emitted, hM, hnew, Option.bind_eq_bind, Option.bind_some]; rfl
  · rw [hkey] at hc ⊢
    simp only [Index.apply, Index.applyStablecoin]
    rw [Index.onConfig_of hc]
    rfl

theorem setPause_recorded {ctx : SetPause} {paused : Bool} (h : setPause w ctx paused = .ok w') :
    w.Recorded (.setPause ctx paused) w' := by
  simp only [setPause, requireSeeds, load, bind_ok_iff, require_ok_iff, okOr_ok_iff,
    pure_ok_iff] at h
  obtain ⟨-, -, M, -, c, hc, -, hkey, -, -, -, -, _, -, -, -, -, -, l, -, _, -, -, -, rfl⟩ := h
  apply World.Recorded.one rfl rfl
  rw [hkey] at hc ⊢
  simp only [Index.apply, Index.applyStablecoin]
  rw [Index.onConfig_of hc]
  rfl

theorem updateSupplyCap_ok {c c' : MintConfig} {supply : ℕ} {supplyCap : Option ℕ}
    (h : updateSupplyCap c supply supplyCap = .ok c') :
    c' = { c with supplyCap := c'.supplyCap } := by
  cases supplyCap with
  | none => obtain rfl := pure_ok_iff.mp h; rfl
  | some cap =>
      simp only [updateSupplyCap, bind_ok_iff, pure_ok_iff] at h
      obtain ⟨-, -, -, -, -, -, -, -, rfl⟩ := h
      rfl

theorem updateComplianceAuthority_ok {c c' : MintConfig} {authority : Option Pubkey}
    (h : updateComplianceAuthority c authority = .ok c') :
    c' = { c with complianceAuthority := c'.complianceAuthority } := by
  cases authority with
  | none => obtain rfl := pure_ok_iff.mp h; rfl
  | some k =>
      simp only [updateComplianceAuthority, bind_ok_iff, pure_ok_iff] at h
      obtain ⟨-, -, rfl⟩ := h
      rfl

theorem updatePendingAdmin_ok {c c' : MintConfig} {authority : Option Pubkey}
    (h : updatePendingAdmin c authority = .ok c') :
    c' = { c with pendingAdmin := c'.pendingAdmin } := by
  cases authority with
  | none => obtain rfl := pure_ok_iff.mp h; rfl
  | some k =>
      simp only [updatePendingAdmin, bind_ok_iff, pure_ok_iff] at h
      obtain ⟨-, -, -, -, rfl⟩ := h
      rfl

theorem updateConfig_recorded {ctx : UpdateConfig} {supplyCap : Option ℕ}
    {complianceAuthority pendingAdmin : Option Pubkey}
    (h : updateConfig w ctx supplyCap complianceAuthority pendingAdmin = .ok w') :
    w.Recorded (.updateConfig ctx supplyCap complianceAuthority pendingAdmin) w' := by
  simp only [updateConfig, requireSeeds, requireHasOne, load, bind_ok_iff, require_ok_iff,
    okOr_ok_iff, pure_ok_iff] at h
  obtain ⟨-, -, M, hM, c, hc, -, hkey, -, hmint, -, -, -, -, c₁, h₁, c₂, h₂, c₃, h₃, rfl⟩ := h
  have he₁ := updateSupplyCap_ok h₁
  have he₂ := updateComplianceAuthority_ok h₂
  have he₃ := updatePendingAdmin_ok h₃
  -- the mint reported is still the one the configuration is found by
  have hm : c₃.mint = ctx.mint := by rw [he₃, he₂, he₁]; exact hmint
  apply World.Recorded.one rfl
  · simp only [Action.emitted, UpdateConfig.emitted, hM, hc, h₁, h₂, h₃, Except.toOption,
      Option.bind_eq_bind, Option.bind_some]; rfl
  · rw [hkey] at hc ⊢
    simp only [Index.apply, Index.applyStablecoin, hm]
    rw [Index.onConfig_of hc]
    refine congrArg (w.index.setConfig _) ?_
    rw [he₃, he₂, he₁]

theorem acceptAdmin_recorded {ctx : AcceptAdmin} (h : acceptAdmin w ctx = .ok w') :
    w.Recorded (.acceptAdmin ctx) w' := by
  simp only [acceptAdmin, requireSeeds, load, bind_ok_iff, require_ok_iff, okOr_ok_iff,
    pure_ok_iff] at h
  obtain ⟨-, -, c, hc, -, hkey, -, -, rfl⟩ := h
  apply World.Recorded.one rfl
  · simp only [Action.emitted, AcceptAdmin.emitted, hc]; rfl
  · rw [hkey] at hc ⊢
    simp only [Index.apply, Index.applyStablecoin]
    rw [Index.onConfig_of hc]
    rfl

theorem initializePool_recorded {ctx : InitializePool} {feeBps : ℕ}
    (h : initializePool w ctx feeBps = .ok w') : w.Recorded (.initializePool ctx feeBps) w' := by
  simp only [initializePool, requireSeeds, load, bind_ok_iff, require_ok_iff, okOr_ok_iff,
    pure_ok_iff] at h
  obtain ⟨-, -, mA, hmA, mB, -, -, -, -, -, -, -, -, -, -, -, -, -, -, hvA, -, hvB, -, -, -, hlk,
    -, -, -, -, -, -, -, -, _, -, _, -, -, -, _, -, -, -, l, -, rfl⟩ := h
  apply World.Recorded.one rfl
  · simp only [Action.emitted, InitializePool.emitted, hmA]; rfl
  · rw [hvA, hvB, hlk]; rfl

theorem addLiquidity_recorded (hw : w.Inv) {ctx : LiquidityAccounts}
    {aDesired bDesired aMin bMin minLpOut : ℕ}
    (h : addLiquidity w ctx aDesired bDesired aMin bMin minLpOut = .ok w') :
    w.Recorded (.addLiquidity ctx aDesired bDesired aMin bMin minLpOut) w' := by
  obtain ⟨a, t, _, _, _, l, h⟩ := addLiquidity_trace hw.shape hw.pools h
  apply World.Recorded.one rfl
  · simp only [Action.emitted, h.emitted]; rfl
  · rw [h.result]
    have hP : w.index.pools ctx.pool = some a.pool := h.valid.pool
    rw [Index.apply, Index.applyAmm, Index.onPool_of hP]
    rfl

theorem removeLiquidity_recorded (hw : w.Inv) {ctx : LiquidityAccounts}
    {lpAmount minAOut minBOut : ℕ} (h : removeLiquidity w ctx lpAmount minAOut minBOut = .ok w') :
    w.Recorded (.removeLiquidity ctx lpAmount minAOut minBOut) w' := by
  obtain ⟨a, q, _, _, l, h⟩ := removeLiquidity_trace hw.shape hw.pools h
  apply World.Recorded.one rfl
  · simp only [Action.emitted, h.emitted]; rfl
  · rw [h.result]
    have hP : w.index.pools ctx.pool = some a.pool := h.valid.pool
    rw [Index.apply, Index.applyAmm, Index.onPool_of hP]
    rfl

theorem swap_recorded (hw : w.Inv) {ctx : PoolAccounts} {d : SwapDirection}
    {amountIn minAmountOut : ℕ} (h : swap w ctx d amountIn minAmountOut = .ok w') :
    w.Recorded (.swap ctx d amountIn minAmountOut) w' := by
  obtain ⟨a, q, _, l, h⟩ := swap_trace hw.shape hw.pools h
  apply World.Recorded.one rfl
  · simp only [Action.emitted, h.emitted]; rfl
  · rw [h.result]
    have hP : w.index.pools ctx.pool = some a.pool := h.valid.pool
    rw [Index.apply, Index.applyAmm, Index.onPool_of hP]
    cases d <;> rfl

/-- What outsiders send to Token-2022 is not recorded, and need not be. -/
theorem direct_recorded {a : Action} {signer : Pubkey} {x : Except TokenError Ledger}
    (ha : a.isInstruction = false) (he : a.emitted w = []) (h : w.direct signer x = .ok w') :
    w.Recorded a w' := by
  simp only [World.direct, bind_ok_iff, pure_ok_iff] at h
  obtain ⟨-, -, l, -, rfl⟩ := h
  exact .silent ha he rfl

/-- **One step.** -/
theorem step_recorded (hw : w.Inv) : ∀ {a : Action}, step w a = .ok w' → w.Recorded a w'
  | .initializeStablecoin .., h => initializeStablecoin_recorded (mapError_ok_iff.mp h)
  | .grantMinter .., h => grantMinter_recorded (mapError_ok_iff.mp h)
  | .revokeMinter .., h => revokeMinter_recorded (mapError_ok_iff.mp h)
  | .setWalletPolicy .., h => setWalletPolicy_recorded (mapError_ok_iff.mp h)
  | .mintTo .., h => mintTo_recorded (mapError_ok_iff.mp h)
  | .burn .., h => burn_recorded (mapError_ok_iff.mp h)
  | .setPause .., h => setPause_recorded (mapError_ok_iff.mp h)
  | .updateConfig .., h => updateConfig_recorded (mapError_ok_iff.mp h)
  | .acceptAdmin .., h => acceptAdmin_recorded (mapError_ok_iff.mp h)
  | .initializePool .., h => initializePool_recorded (mapError_ok_iff.mp h)
  | .addLiquidity .., h => addLiquidity_recorded hw (mapError_ok_iff.mp h)
  | .removeLiquidity .., h => removeLiquidity_recorded hw (mapError_ok_iff.mp h)
  | .swap .., h => swap_recorded hw (mapError_ok_iff.mp h)
  | .createAccount .., h | .transfer .., h | .burnDirect .., h | .setOwner .., h
  | .closeAccount .., h => direct_recorded rfl rfl h

/-! ### Histories -/

/-- The log has one event for each instruction. -/
theorem log_length (hw : w.Inv) {as : List Action} (h : Run step w as w') :
    (w.log as).length = as.countP (·.isInstruction) := by
  induction h with
  | refl => rfl
  | @more w w₁ w' a as h _ ih =>
      have hlen := (step_recorded hw h).length
      rw [World.log, logAlong_cons h, List.length_append, hlen, List.countP_cons,
        ← ih (step_inv _ _ _ hw h), World.log]
      exact Nat.add_comm _ _

/-- **The log rebuilds the accounts.**  An index that agrees with the chain at some moment agrees
with it at every later one if it takes in what was written in between, one event for each
instruction; one that starts empty agrees after every history from genesis. -/
theorem log_rebuilds :
    (∀ {w w' : World} {as : List Action}, w.Reachable → Run step w as w' →
      w'.index = (w.log as).foldl Index.apply w.index ∧
      (w.log as).length = as.countP (·.isInstruction)) ∧
    ∀ {addressBytes : Pubkey → List UInt8} {as : List Action} {w : World},
      Run step (World.genesis addressBytes) as w →
      w.index = ((World.genesis addressBytes).log as).foldl Index.apply Index.empty := by
  constructor
  · intro w w' as hw h
    exact ⟨h.replay step_inv (fun _ _ _ hw h => (step_recorded hw h).index) hw.inv,
      log_length hw.inv h⟩
  · intro addressBytes as w h
    exact h.replay step_inv (fun _ _ _ hw h => (step_recorded hw h).index)
      (inv_genesis addressBytes)

/-- Twelve of its fourteen actions are instructions. -/
theorem log_rebuilds_lopsided :
    lopsided.index = ((World.genesis Lopsided.addressBytes).log Lopsided.history).foldl
      Index.apply Index.empty ∧
    ((World.genesis Lopsided.addressBytes).log Lopsided.history).length = 12 :=
  ⟨log_rebuilds.2 lopsided_run,
    (log_rebuilds.1 ⟨_, [], ⟨_, rfl⟩, .refl _⟩ lopsided_run).2.trans (by decide)⟩

end

end StablecoinAmm
