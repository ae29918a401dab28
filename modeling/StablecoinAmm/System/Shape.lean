import StablecoinAmm.Amm.Accounts
import StablecoinAmm.Chain.Movement

/-!
# System — what accounts look like

`World.Shape`: the part of the invariant that no amount enters.  Accounts stand where their
seeds say, mints have the authorities the programs gave them, a pool's accounts belong to it,
and a thawed account of a stablecoin has an `Allowed` policy.

Most instructions change only amounts, counters and administrators.  For them the shape is
unchanged because all it depends on is (`Framed`, `Shape.of_framed`).
-/

namespace StablecoinAmm
open Support

/-! ### Frames -/

/-- A configuration without its administrators, cap and counters. -/
def MintConfig.erase (c : MintConfig) : MintConfig :=
  { c with admin := .default, pendingAdmin := none, complianceAuthority := .default,
           supplyCap := 0, totalMinted := 0, totalBurned := 0 }

/-- A pool without its reserves. -/
def Pool.erase (P : Pool) : Pool := { P with reserveA := 0, reserveB := 0 }

/-- What never changes of a pool. -/
theorem Pool.mints_of_erase {P P' : Pool} (h : P'.erase = P.erase) :
    P'.mintA = P.mintA ∧ P'.mintB = P.mintB ∧ P'.lpMint = P.lpMint := by
  cases P; cases P'
  simp only [Pool.erase, Pool.mk.injEq] at h
  obtain ⟨rfl, rfl, -, -, rfl, -⟩ := h
  exact ⟨rfl, rfl, rfl⟩

/-- From `w` to `w'` only amounts, counters, administrators and minter roles changed. -/
structure World.Framed (w w' : World) : Prop where
  ledger : w'.ledger.skeleton = w.ledger.skeleton
  configs : ∀ k, (w'.configs k).map MintConfig.erase = (w.configs k).map MintConfig.erase
  pools : ∀ k, (w'.pools k).map Pool.erase = (w.pools k).map Pool.erase
  walletPolicies : w'.walletPolicies = w.walletPolicies

theorem exists_of_map_eq {α β : Type} {f : α → β} {o o' : Option α} (h : o'.map f = o.map f)
    {a : α} (ha : o = some a) : ∃ a', o' = some a' ∧ f a' = f a := by
  rw [ha] at h
  exact Option.map_eq_some_iff.mp h

namespace World.Framed

variable {w w' w₁ : World}

theorem symm (h : Framed w w') : Framed w' w :=
  ⟨h.ledger.symm, fun k => (h.configs k).symm, fun k => (h.pools k).symm, h.walletPolicies.symm⟩

theorem trans (h₁ : Framed w w₁) (h₂ : Framed w₁ w') : Framed w w' :=
  ⟨h₂.ledger.trans h₁.ledger, fun k => (h₂.configs k).trans (h₁.configs k),
    fun k => (h₂.pools k).trans (h₁.pools k), h₂.walletPolicies.trans h₁.walletPolicies⟩

theorem of_ledger {l : Ledger} (h : l.skeleton = w.ledger.skeleton) :
    Framed w { w with ledger := l } :=
  ⟨h, fun _ => rfl, fun _ => rfl, rfl⟩

theorem of_minterRole (w : World) (k : Pubkey) (r : Option MinterRole) :
    Framed w (w.setMinterRole k r) :=
  ⟨rfl, fun _ => rfl, fun _ => rfl, rfl⟩

theorem of_config {k : Pubkey} {c c' : MintConfig} (h : w.configs k = some c)
    (hc : c'.erase = c.erase) : Framed w (w.setConfig k c') := by
  refine ⟨rfl, fun j => ?_, fun _ => rfl, rfl⟩
  by_cases hj : j = k
  · subst hj
    simp [setConfig, h, hc]
  · simp [setConfig, hj]

theorem of_pool {k : Pubkey} {P P' : Pool} (h : w.pools k = some P) (hP : P'.erase = P.erase) :
    Framed w (w.setPool k P') := by
  refine ⟨rfl, fun _ => rfl, fun j => ?_, rfl⟩
  by_cases hj : j = k
  · subst hj
    simp [setPool, h, hP]
  · simp [setPool, hj]

theorem token (h : Framed w w') {k : Pubkey} {a : TokenAccount}
    (ha : w.ledger.tokens k = some a) :
    w'.ledger.tokens k = some { a with amount := w'.ledger.balance k } :=
  Ledger.token_of_skeleton h.ledger ha

theorem mint (h : Framed w w') {k : Pubkey} {M : Mint} (hM : w.ledger.mints k = some M) :
    w'.ledger.mints k = some { M with supply := w'.ledger.supply k } :=
  Ledger.mint_of_skeleton h.ledger hM

theorem config (h : Framed w w') {k : Pubkey} {c : MintConfig} (hc : w.configs k = some c) :
    ∃ c', w'.configs k = some c' ∧ c'.erase = c.erase :=
  exists_of_map_eq (h.configs k) hc

theorem pool (h : Framed w w') {k : Pubkey} {P : Pool} (hP : w.pools k = some P) :
    ∃ P', w'.pools k = some P' ∧ P'.erase = P.erase :=
  exists_of_map_eq (h.pools k) hP

end World.Framed

/-! ### The shape -/

/-- A configuration stands at the address of its mint. -/
structure MintConfig.Placed (k : Pubkey) (c : MintConfig) : Prop where
  key : k = .config c.mint
  mint : c.mint = .mint c.symbol

/-- A pool stands at the address of its two mints, and names the accounts derived from it. -/
structure Pool.Placed (p : Pubkey) (P : Pool) : Prop where
  key : p = .pool P.mintA P.mintB
  mintA : ∃ s, P.mintA = .mint s
  mintB : ∃ s, P.mintB = .mint s
  mints_ne : P.mintA ≠ P.mintB
  vaultA : P.vaultA = .vault p P.mintA
  vaultB : P.vaultB = .vault p P.mintB
  lpMint : P.lpMint = .lpMint p
  lockedLp : P.lockedLp = .lockedLp p
  feeBps : P.feeBps ≤ Amm.maxFeeBps

/-- The mint of a configuration: its authorities are the configuration's, it freezes new
accounts, and it can be paused. -/
structure Mint.IssuedBy (k : Pubkey) (c : MintConfig) (M : Mint) : Prop where
  mintAuthority : M.mintAuthority = some k
  freezeAuthority : M.freezeAuthority = some k
  decimals : M.decimals = c.decimals
  defaultState : M.defaultState = .frozen
  pausable : M.pausable = some { authority := k, paused := c.paused }

/-- The LP mint of a pool: only the pool issues, and nobody freezes or pauses. -/
structure Mint.SharesOf (p : Pubkey) (P : Pool) (M : Mint) : Prop where
  mintAuthority : M.mintAuthority = some p
  freezeAuthority : M.freezeAuthority = none
  decimals : M.decimals = P.decimals
  pausable : M.pausable = none

/-- The accounts of a pool exist and belong to it. -/
structure World.PoolShape (w : World) (p : Pubkey) (P : Pool) : Prop where
  placed : P.Placed p
  vaultA : w.ledger.HasAccount P.vaultA P.mintA p
  vaultB : w.ledger.HasAccount P.vaultB P.mintB p
  lockedLp : w.ledger.HasAccount P.lockedLp P.lpMint p
  lpMint : ∃ M, w.ledger.mints P.lpMint = some M ∧ M.SharesOf p P

/-- A policy for exactly this mint and account, with status `Allowed`. -/
def World.IsAllowed (w : World) (mint account : Pubkey) : Prop :=
  ∃ p, w.walletPolicies (.walletPolicy mint account) = some p ∧ p.mint = mint ∧
    p.tokenAccount = account ∧ p.status = .allowed

/-- The stablecoin at `m`: it has a configuration. -/
def World.IsStablecoin (w : World) (m : Pubkey) : Prop := ∃ c, w.configs (.config m) = some c

/-- **The shape of the world.** -/
structure World.Shape (w : World) : Prop where
  config : ∀ k c, w.configs k = some c →
    c.Placed k ∧ ∃ M, w.ledger.mints c.mint = some M ∧ M.IssuedBy k c
  pool : ∀ p P, w.pools p = some P → w.PoolShape p P
  /-- Every mint is a stablecoin's or a pool's. -/
  mint : ∀ m M, w.ledger.mints m = some M →
    ((∃ s, m = .mint s) ∧ w.IsStablecoin m) ∨ ∃ p P, m = .lpMint p ∧ w.pools p = some P
  token : ∀ k a, w.ledger.tokens k = some a → ∃ M, w.ledger.mints a.mint = some M
  policy : ∀ k p, w.walletPolicies k = some p → k = .walletPolicy p.mint p.tokenAccount
  /-- Default deny. -/
  thawed : ∀ k a, w.ledger.tokens k = some a → w.IsStablecoin a.mint → a.state ≠ .frozen →
    w.IsAllowed a.mint k

namespace World

theorem shape_genesis (addressBytes : Pubkey → List UInt8) : (genesis addressBytes).Shape where
  config _ _ h := nomatch h
  pool _ _ h := nomatch h
  mint _ _ h := nomatch h
  token _ _ h := nomatch h
  policy _ _ h := nomatch h
  thawed _ _ h := nomatch h

variable {w w' : World}

theorem Framed.isStablecoin (h : Framed w w') {m : Pubkey} (hm : w.IsStablecoin m) :
    w'.IsStablecoin m := by
  obtain ⟨c, hc⟩ := hm
  obtain ⟨c', hc', -⟩ := h.config hc
  exact ⟨c', hc'⟩

theorem Framed.hasAccount (h : Framed w w') {k m o : Pubkey} (hk : w.ledger.HasAccount k m o) :
    w'.ledger.HasAccount k m o :=
  hk.of_skeleton h.ledger

theorem MintConfig.erase_eq {c c' : MintConfig} (h : c'.erase = c.erase) :
    c'.mint = c.mint ∧ c'.symbol = c.symbol ∧ c'.decimals = c.decimals ∧ c'.paused = c.paused := by
  cases c; cases c'
  simp only [MintConfig.erase, MintConfig.mk.injEq] at h
  obtain ⟨-, -, -, rfl, rfl, rfl, -, -, -, rfl⟩ := h
  exact ⟨rfl, rfl, rfl, rfl⟩

theorem Framed.poolShape (h : Framed w w') {p : Pubkey} {P P' : Pool} (hP : P'.erase = P.erase)
    (hs : w.PoolShape p P) : w'.PoolShape p P' := by
  obtain ⟨M, hM, hMs⟩ := hs.lpMint
  have hp := hs.placed
  have hA := h.hasAccount hs.vaultA
  have hB := h.hasAccount hs.vaultB
  have hL := h.hasAccount hs.lockedLp
  replace hM := h.mint hM
  cases P; cases P'
  simp only [Pool.erase, Pool.mk.injEq] at hP
  obtain ⟨rfl, rfl, rfl, rfl, rfl, rfl, -, -, rfl, rfl⟩ := hP
  exact
    { placed := ⟨hp.key, hp.mintA, hp.mintB, hp.mints_ne, hp.vaultA, hp.vaultB, hp.lpMint,
        hp.lockedLp, hp.feeBps⟩
      vaultA := hA
      vaultB := hB
      lockedLp := hL
      lpMint := ⟨_, hM, hMs.mintAuthority, hMs.freezeAuthority, hMs.decimals, hMs.pausable⟩ }

/-- **The shape does not depend on amounts, counters or administrators.** -/
theorem Shape.of_framed (h : Framed w w') (hs : w.Shape) : w'.Shape where
  config k c' hc' := by
    obtain ⟨c, hc, he⟩ := h.symm.config hc'
    obtain ⟨hm, hsym, hd, hp⟩ := MintConfig.erase_eq he
    obtain ⟨hplaced, M, hM, hMi⟩ := hs.config k c hc
    refine ⟨⟨hm ▸ hplaced.key, ?_⟩, _, h.mint (hm ▸ hM), ?_⟩
    · rw [← hm, ← hsym]; exact hplaced.mint
    · exact ⟨hMi.mintAuthority, hMi.freezeAuthority, hd ▸ hMi.decimals, hMi.defaultState,
        hp ▸ hMi.pausable⟩
  pool p P' hP' := by
    obtain ⟨P, hP, he⟩ := h.symm.pool hP'
    exact h.poolShape he.symm (hs.pool p P hP)
  mint m M' hM' := by
    rcases hs.mint m _ (h.symm.mint hM') with ⟨hm, hst⟩ | ⟨p, P, hm, hP⟩
    · exact .inl ⟨hm, h.isStablecoin hst⟩
    · obtain ⟨P', hP', -⟩ := h.pool hP
      exact .inr ⟨p, P', hm, hP'⟩
  token k a' ha' := by
    obtain ⟨M, hM⟩ := hs.token k _ (h.symm.token ha')
    exact ⟨_, h.mint hM⟩
  policy k p hp := hs.policy k p (by rwa [← h.walletPolicies])
  thawed k a' ha' hst hf := by
    have hallowed := hs.thawed k _ (h.symm.token ha') (h.symm.isStablecoin hst) hf
    rwa [IsAllowed, h.walletPolicies]

end World

end StablecoinAmm
