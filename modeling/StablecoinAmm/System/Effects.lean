import StablecoinAmm.Amm.Effects
import StablecoinAmm.Chain.Conservation
import StablecoinAmm.Stablecoin.Effects
import StablecoinAmm.System.Step

/-!
# System — what a step does

`Action.Effect` and `Action.Error` collect, for every action, what its success means and what it
can fail with; `step_sat` is the one place where the actions are told apart by their code.
Every invariant is proved from it.

Here too are the effects of what outsiders send to Token-2022 themselves, and of
`initialize_pool`.
-/

namespace StablecoinAmm
open Support Ledger

/-! ### `initialize_pool` -/

/-- A new account of `mint`. -/
def emptyAccount (mint owner : Pubkey) (state : AccountState) (immutableOwner : Bool) :
    TokenAccount :=
  { mint, owner, amount := 0, state, immutableOwner }

/-- A new LP mint. -/
def emptyLpMint (pool : Pubkey) (decimals : ℕ) : Mint :=
  { mintAuthority := some pool, supply := 0, decimals, freezeAuthority := none, extensions := [],
    defaultState := .initialized, pausable := none, metadata := none }

/-- The ledger with the four accounts of a new pool. -/
def openPool (l : Ledger) (pool kA kB : Pubkey) (mA mB : Mint) : Ledger :=
  (((l.setToken (.vault pool kA) (emptyAccount kA pool mA.defaultState false)).setToken
    (.vault pool kB) (emptyAccount kB pool mB.defaultState false)).setMint
    (.lpMint pool) (emptyLpMint pool mA.decimals)).setToken
    (.lockedLp pool) (emptyAccount (.lpMint pool) pool .initialized false)

/-- A successful `initialize_pool`. -/
structure InitializePool.Effect (w : World) (ctx : InitializePool) (feeBps : ℕ) (mA mB : Mint)
    (w' : World) : Prop where
  pool_key : ctx.pool = .pool ctx.mintA ctx.mintB
  pool_free : w.pools ctx.pool = none
  mintA : w.ledger.mints ctx.mintA = some mA
  mintB : w.ledger.mints ctx.mintB = some mB
  configA : ∃ c, w.configs (.config ctx.mintA) = some c ∧ c.mint = ctx.mintA
  configB : ∃ c, w.configs (.config ctx.mintB) = some c ∧ c.mint = ctx.mintB
  mints_ne : ctx.mintA ≠ ctx.mintB
  feeBps_le : feeBps ≤ Amm.maxFeeBps
  vaultA_free : w.ledger.tokens (.vault ctx.pool ctx.mintA) = none
  vaultB_free : w.ledger.tokens (.vault ctx.pool ctx.mintB) = none
  lpMint_free : w.ledger.mints (.lpMint ctx.pool) = none
  lockedLp_free : w.ledger.tokens (.lockedLp ctx.pool) = none
  result : w' = { w with ledger := openPool w.ledger ctx.pool ctx.mintA ctx.mintB mA mB }.setPool
    ctx.pool
    { mintA := ctx.mintA, mintB := ctx.mintB, vaultA := .vault ctx.pool ctx.mintA,
      vaultB := .vault ctx.pool ctx.mintB, lpMint := .lpMint ctx.pool,
      lockedLp := .lockedLp ctx.pool, reserveA := 0, reserveB := 0, feeBps,
      decimals := mA.decimals }

theorem initializeAccount3_ok {l l' : Ledger} {account mint owner : Pubkey} {immutable : Bool}
    (h : l.initializeAccount3 account mint owner immutable = .ok l') :
    ∃ M, l.mints mint = some M ∧ l.tokens account = none ∧
      l' = l.setToken account (emptyAccount mint owner M.defaultState immutable) := by
  simp only [initializeAccount3, bind_ok_iff, require_ok_iff, pure_ok_iff] at h
  obtain ⟨-, hfree, M, hM, hl⟩ := h
  exact ⟨M, mint_ok hM, hfree, hl.symm⟩

theorem initializeLpMint_ok {l l' : Ledger} {mint pool : Pubkey} {decimals : ℕ}
    (h : l.initializeMint2 mint decimals pool none [] .initialized none none = .ok l') :
    l' = l.setMint mint (emptyLpMint pool decimals) := by
  simp only [initializeMint2, bind_ok_iff, pure_ok_iff] at h
  obtain ⟨-, -, hl⟩ := h
  exact hl.symm

theorem createVault_sat (l : Ledger) (vault mint pool : Pubkey) :
    Sat (createVault l vault mint pool)
      (fun l' => ∃ M, l.mints mint = some M ∧ l.tokens vault = none ∧
        l' = l.setToken vault (emptyAccount mint pool M.defaultState false)) Refusal := by
  refine Sat.bind (.mapError (fun M hM => mint_ok hM) fun _ _ => trivial) fun M _ => ?_
  refine .require (fun _ => trivial) fun _ => ?_
  refine .require (fun _ => trivial) fun _ => ?_
  exact .mapError (fun l' hl' => initializeAccount3_ok hl') fun _ _ => trivial

theorem initializePool_sat (w : World) (ctx : InitializePool) (feeBps : ℕ) :
    Sat (initializePool w ctx feeBps) (fun w' => ∃ mA mB, ctx.Effect w feeBps mA mB w')
      Refusal := by
  refine .require (fun _ => trivial) fun _ => ?_
  refine .okOr (fun _ => trivial) fun mA hmA => ?_
  refine .okOr (fun _ => trivial) fun mB hmB => ?_
  refine .okOr (fun _ => trivial) fun cA hcA => ?_
  refine .okOr (fun _ => trivial) fun cB hcB => ?_
  refine .require (fun _ => trivial) fun hpk => ?_
  refine .require (fun _ => trivial) fun hpf => ?_
  refine (requireConfig_sat ..).bind fun _ hca => ?_
  refine (requireConfig_sat ..).bind fun _ hcb => ?_
  refine .require (fun _ => trivial) fun hva => ?_
  refine .require (fun _ => trivial) fun hvb => ?_
  refine .require (fun _ => trivial) fun hlp => ?_
  refine .require (fun _ => trivial) fun hlk => ?_
  refine .require (fun _ => trivial) fun hne => ?_
  refine .require (fun _ => trivial) fun _ => ?_
  refine .require (fun _ => trivial) fun hfee => ?_
  refine .require (fun _ => trivial) fun _ => ?_
  obtain ⟨payer, kA, kB, kcA, kcB, pool, vA, vB, lp, lk⟩ := ctx
  dsimp only at *
  subst hva hvb hlp hlk
  refine (createVault_sat ..).bind ?_
  rintro _ ⟨mA', hmA', hvAfree, rfl⟩
  obtain rfl := Option.some.inj (hmA.symm.trans hmA')
  refine (createVault_sat ..).bind ?_
  rintro _ ⟨mB', hmB', hvBfree, rfl⟩
  obtain rfl := Option.some.inj (hmB.symm.trans hmB')
  refine .require (fun _ => trivial) fun hlpfree => ?_
  refine Sat.bind (.mapError (fun l hl => initializeLpMint_ok hl) fun _ _ => trivial) ?_
  rintro _ rfl
  refine .require (fun _ => trivial) fun _ => ?_
  refine Sat.bind (.mapError (fun l hl => initializeAccount3_ok hl) fun _ _ => trivial) ?_
  rintro _ ⟨N, hN, hlkfree, rfl⟩
  -- the LP mint just created has no default state of its own
  obtain rfl := Option.some.inj ((setMint_mints_self ..).symm.trans hN)
  have hvne : Pubkey.vault pool kB ≠ .vault pool kA := fun h => hne (Pubkey.vault.inj h).2.symm
  refine .pure ⟨mA, mB, ?_⟩
  exact
    { pool_key := hpk
      pool_free := by simpa using hpf
      mintA := hmA
      mintB := hmB
      configA := ⟨cA, hca.1 ▸ hcA, hca.2⟩
      configB := ⟨cB, hcb.1 ▸ hcB, hcb.2⟩
      mints_ne := hne
      feeBps_le := hfee
      vaultA_free := hvAfree
      vaultB_free := by rwa [setToken_tokens_of_ne _ _ _ hvne] at hvBfree
      lpMint_free := by simpa using hlpfree
      lockedLp_free := by simpa using hlkfree
      result := rfl }

/-! ### The invariant -/

/-- The supply of every stablecoin is covered by its counters and within its cap. -/
structure World.AccountedAt (w : World) (c : MintConfig) : Prop where
  tracks : c.Tracks (w.ledger.supply c.mint)
  supply_le : w.ledger.supply c.mint ≤ c.supplyCap
  supplyCap_le : c.supplyCap ≤ maxSupplyCap

/-- **What holds in every reachable world.** -/
structure World.Inv (w : World) : Prop where
  shape : w.Shape
  conserved : w.ledger.Conserved
  accounted : ∀ k c, w.configs k = some c → w.AccountedAt c
  pools : w.PoolsValid

theorem World.Inv.tracks {w : World} (hw : w.Inv) (k : Pubkey) (c : MintConfig) (M : Mint)
    (hc : w.configs k = some c) (hM : w.ledger.mints c.mint = some M) : c.Tracks M.supply := by
  have h := (hw.accounted k c hc).tracks
  rwa [supply_of hM] at h

/-- The flag a configuration keeps is the live one. -/
theorem World.Shape.flag {w : World} (hs : w.Shape) (k : Pubkey) (c : MintConfig) (M : Mint)
    (p : PausableConfig) (hc : w.configs k = some c) (hM : w.ledger.mints c.mint = some M)
    (hp : M.pausable = some p) : p.paused = c.paused := by
  obtain ⟨-, N, hN, hNi⟩ := hs.config k c hc
  obtain rfl := Option.some.inj (hM.symm.trans hN)
  obtain rfl := Option.some.inj (hp.symm.trans hNi.pausable)
  rfl

/-! ### Every action -/

/-- **What the success of an action means.** -/
def Action.Effect (w : World) (a : Action) (w' : World) : Prop :=
  match a with
  | .initializeStablecoin ctx symbol _ _ _ supplyCap =>
      ∃ M c, ctx.Effect w symbol supplyCap M c w'
  | .grantMinter ctx allowance => w' = w.setMinterRole ctx.minterRole
      (some { config := ctx.config, authority := ctx.authority, allowance, minted := 0 })
  | .revokeMinter ctx => w' = w.setMinterRole ctx.minterRole none
  | .setWalletPolicy ctx status unixTimestamp => ∃ c a, ctx.Effect w status unixTimestamp c a w'
  | .mintTo ctx amount => ∃ a l, ctx.Effect w amount a l w'
  | .burn ctx amount => ∃ c l, ctx.Effect w amount c l w'
  | .setPause ctx paused => ∃ c M p, ctx.Effect w paused c M p w'
  | .updateConfig ctx supplyCap complianceAuthority pendingAdmin =>
      ∃ c, ctx.Effect w supplyCap complianceAuthority pendingAdmin c w'
  | .acceptAdmin ctx => ∃ c, w.configs ctx.config = some c ∧
      c.pendingAdmin = some ctx.pendingAdmin ∧
      w' = w.setConfig ctx.config { c with admin := ctx.pendingAdmin, pendingAdmin := none }
  | .initializePool ctx feeBps => ∃ mA mB, ctx.Effect w feeBps mA mB w'
  | .addLiquidity ctx aDesired bDesired _ _ _ =>
      ∃ a t l₁ l₂ l₃ l₄, ctx.AddEffect w aDesired bDesired a t l₁ l₂ l₃ l₄ w'
  | .removeLiquidity ctx lpAmount _ _ =>
      ∃ a q l₁ l₂ l₃, ctx.RemoveEffect w lpAmount a q l₁ l₂ l₃ w'
  | .swap ctx d amountIn _ => ∃ a q l₁ l₂, ctx.SwapEffect w d amountIn a q l₁ l₂ w'
  | .createAccount account mint owner immutableOwner =>
      ∃ M, account.isSigner ∧ w.ledger.mints mint = some M ∧ w.ledger.tokens account = none ∧
        w' = { w with
          ledger := w.ledger.setToken account
            (emptyAccount mint owner M.defaultState immutableOwner) }
  | .transfer c amount _ =>
      ∃ l, c.authority.isSigner ∧ Transferred w.ledger c c.authority amount l ∧
        w' = { w with ledger := l }
  | .burnDirect c amount _ =>
      ∃ l, c.authority.isSigner ∧ Burned w.ledger c c.authority amount l ∧
        w' = { w with ledger := l }
  | .setOwner account authority newOwner =>
      ∃ a, authority.isSigner ∧ w.ledger.tokens account = some a ∧ a.state ≠ .frozen ∧
        a.owner = authority ∧ a.immutableOwner = false ∧
        w' = { w with ledger := w.ledger.setToken account { a with owner := newOwner } }
  | .closeAccount account authority =>
      ∃ a, authority.isSigner ∧ w.ledger.tokens account = some a ∧ a.amount = 0 ∧
        a.owner = authority ∧
        w' = { w with
          ledger := { w.ledger with tokens := Function.update w.ledger.tokens account none } }

/-- **What an action can fail with.** -/
def Action.Error (w : World) (a : Action) (e : StepError) : Prop :=
  match a with
  | .mintTo .. | .burn .. | .updateConfig .. =>
      ∃ e', e = .stablecoin e' ∧ e' ≠ .custom .counterInvariantViolation
  | .setPause .. => ∃ e', e = .stablecoin e' ∧ e' ≠ .custom .pauseStateDrift
  | .initializeStablecoin .. | .grantMinter .. | .revokeMinter .. | .setWalletPolicy ..
  | .acceptAdmin .. => ∃ e', e = .stablecoin e'
  | .initializePool .. => ∃ e', e = .amm e' ∧ Refusal e'
  | .addLiquidity ctx aDesired bDesired _ _ _ =>
      ∃ e', e = .amm e' ∧ ctx.AddError w aDesired bDesired e'
  | .removeLiquidity ctx lpAmount _ _ => ∃ e', e = .amm e' ∧ ctx.RemoveError w lpAmount e'
  | .swap ctx d amountIn _ => ∃ e', e = .amm e' ∧ ctx.SwapError w d amountIn e'
  | .createAccount .. | .transfer .. | .burnDirect .. | .setOwner .. | .closeAccount .. =>
      ∃ e', e = .token e'

/-- The outcome of a program, as the outcome of a step. -/
theorem program_sat {ε : Type} {x : Except (ProgramError ε) World} {Q : World → Prop}
    {E : ProgramError ε → Prop} (f : ProgramError ε → StepError) (h : Sat x Q E) :
    Sat (x.mapError f) Q (fun e => ∃ e', e = f e' ∧ E e') :=
  .mapError (fun _ hw => h.ok hw) fun e he => ⟨e, rfl, h.error he⟩

/-- The outcome of a program of which only the success is known. -/
theorem program_ok {ε : Type} {x : Except (ProgramError ε) World} {Q : World → Prop}
    (f : ProgramError ε → StepError) (h : ∀ w, x = .ok w → Q w) :
    Sat (x.mapError f) Q (fun e => ∃ e', e = f e') :=
  .mapError h fun e _ => ⟨e, rfl⟩

theorem direct_sat {w : World} {signer : Pubkey} {x : Except TokenError Ledger}
    {Q : World → Prop}
    (h : ∀ l, signer.isSigner → x = .ok l → Q { w with ledger := l }) :
    Sat (w.direct signer x) Q (fun e => ∃ e', e = .token e') := by
  refine .require (fun _ => ⟨_, rfl⟩) fun hs => ?_
  refine Sat.bind (P := fun l => x = .ok l) (.mapError (fun _ hl => hl) fun e _ => ⟨e, rfl⟩) ?_
  intro l hl
  exact .pure (h l hs hl)

/-- **One step.** -/
theorem step_sat {w : World} (hw : w.Inv) : ∀ a : Action, Sat (step w a) (a.Effect w) (a.Error w)
  | .initializeStablecoin .. => program_ok _ fun _ h => initializeStablecoin_ok h
  | .grantMinter .. => program_ok _ fun _ h => grantMinter_ok h
  | .revokeMinter .. => program_ok _ fun _ h => revokeMinter_ok h
  | .setWalletPolicy .. => program_ok _ fun _ h => setWalletPolicy_ok h
  | .mintTo .. => program_sat _ (mintTo_sat fun c M => hw.tracks _ c M)
  | .burn .. => program_sat _ (burn_sat fun c M => hw.tracks _ c M)
  | .setPause .. => program_sat _ (setPause_sat fun c M p => hw.shape.flag _ c M p)
  | .updateConfig .. => program_sat _ (updateConfig_sat fun c M => hw.tracks _ c M)
  | .acceptAdmin .. => program_ok _ fun _ h => acceptAdmin_ok h
  | .initializePool .. => program_sat _ (initializePool_sat w _ _)
  | .addLiquidity .. => program_sat _ (addLiquidity_sat hw.shape hw.pools ..)
  | .removeLiquidity .. => program_sat _ (removeLiquidity_sat hw.shape hw.pools ..)
  | .swap .. => program_sat _ (swap_sat hw.shape hw.pools ..)
  | .createAccount .. => direct_sat fun l hs h => by
      obtain ⟨M, hM, hfree, rfl⟩ := initializeAccount3_ok h
      exact ⟨M, hs, hM, hfree, rfl⟩
  | .transfer .. => direct_sat fun l hs h => ⟨l, hs, token2022.transferred h, rfl⟩
  | .burnDirect .. => direct_sat fun l hs h => ⟨l, hs, token2022.burned h, rfl⟩
  | .setOwner .. => direct_sat fun l hs h => by
      simp only [Ledger.setOwner, bind_ok_iff, require_ok_iff, pure_ok_iff] at h
      obtain ⟨a, ha, -, hf, _, ho, -, hi, rfl⟩ := h
      exact ⟨a, hs, token_ok ha, hf, (validateOwner_ok ho).1, by simpa using hi, rfl⟩
  | .closeAccount .. => direct_sat fun l hs h => by
      simp only [Ledger.closeAccount, bind_ok_iff, require_ok_iff, pure_ok_iff] at h
      obtain ⟨a, ha, -, hn, _, ho, rfl⟩ := h
      exact ⟨a, hs, token_ok ha, hn, (validateOwner_ok ho).1, rfl⟩

end StablecoinAmm
