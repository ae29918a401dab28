import StablecoinAmm.Compliance.Accounts

/-!
# Compliance — whose account was allowed

A policy records the owner its account had when the policy was set, and no instruction compares
the two again: `mint_to` and the instructions of a pool ask for the status alone.  The owner of
a thawed account without the `ImmutableOwner` extension can hand it to another key, which then
is paid and trades under the policy of the first (`handed_over_account_trades`).

What the history says is exact (`wallet_accounts_vetted`): every stablecoin account of a user
that these instructions touch is thawed and has an `Allowed` policy of its own, and its owner is
the one recorded unless the account was handed over since its policy was last set; then it is
the key it was last handed to.
-/

namespace StablecoinAmm
open Support Ledger

/-- The stablecoin accounts of users an instruction acts on, with their mints. -/
def Action.walletAccounts : Action → List (Pubkey × Pubkey)
  | .mintTo ctx _ => [(ctx.mint, ctx.destination)]
  | .addLiquidity ctx .. => [(ctx.mintA, ctx.userA), (ctx.mintB, ctx.userB)]
  | .removeLiquidity ctx .. => [(ctx.mintA, ctx.userA), (ctx.mintB, ctx.userB)]
  | .swap ctx .. => [(ctx.mintA, ctx.userA), (ctx.mintB, ctx.userB)]
  | _ => []

/-- The key that account `k` of mint `m` was last handed to since its policy was last set. -/
def handedTo (m k : Pubkey) (g : Option Pubkey) : Action → Option Pubkey
  | .setWalletPolicy ctx .. => if ctx.mint = m ∧ ctx.tokenAccount = k then none else g
  | .setOwner account _ newOwner => if account = k then some newOwner else g
  | _ => g

/-- If `k` is a thawed account of `m`, its owner is `g`, or the one its policy records. -/
def World.OwnedBy (m k : Pubkey) (g : Option Pubkey) (w : World) : Prop :=
  ∀ a p, w.ledger.tokens k = some a → a.mint = m → a.state ≠ .frozen →
    w.walletPolicies (.walletPolicy m k) = some p → a.owner = g.getD p.owner

/-- `k` is a thawed account of `m`. -/
def Ledger.IsThawed (l : Ledger) (m k : Pubkey) : Prop :=
  ∃ a, l.tokens k = some a ∧ a.mint = m ∧ a.state ≠ .frozen

theorem Ledger.IsThawed.of_skeleton {l l' : Ledger} (h : l'.skeleton = l.skeleton)
    {m k : Pubkey} (hk : l.IsThawed m k) : l'.IsThawed m k := by
  obtain ⟨a, ha, hm, hf⟩ := hk
  exact ⟨_, token_of_skeleton h ha, hm, hf⟩

section
variable {w w' : World} {m k : Pubkey} {g : Option Pubkey}

/-! ### The owner along a run -/

/-- Actions on other accounts do not count. -/
theorem handedTo_of_subject {a : Action} (h : a.subject ≠ some k) : handedTo m k g a = g := by
  cases a with
  | setWalletPolicy ctx => exact if_neg fun e => h (congrArg some e.2)
  | setOwner account => exact if_neg fun e => h (congrArg some e)
  | _ => rfl

/-- **One step.** -/
theorem Action.Effect.ownedBy (hs : w.Shape) (hm : ∃ s, m = .mint s) (hJ : w.OwnedBy m k g)
    {a : Action} (h : a.Effect w w') : w'.OwnedBy m k (handedTo m k g a) := by
  intro b' p' hb' hbm' hf hp'
  cases h.accountStep hs k with
  | kept ha ht hp =>
      obtain ⟨b, hb, hbm, ho, hst⟩ := token_of_erase ht hb'
      rw [handedTo_of_subject ha, ← ho]
      exact hJ b p' hb (hbm.trans hbm') (hst ▸ hf) ((hp m).symm.trans hp')
  | vetted hk hb hbm ht hpol ho =>
      obtain rfl := Option.some.inj (ht.symm.trans hb')
      obtain rfl := hbm.symm.trans hbm'
      obtain rfl := Option.some.inj (hpol.symm.trans hp')
      simp [handedTo, hk, ho]
  | created _ hM ht =>
      obtain rfl := Option.some.inj (ht.symm.trans hb')
      obtain rfl := hbm'
      exact absurd (hs.freezes hM hm) hf
  | opened _ _ _ ht hfz =>
      obtain rfl := Option.some.inj (ht.symm.trans hb')
      obtain rfl := hbm'
      exact absurd (hfz hm) hf
  | handed _ _ _ ht =>
      obtain rfl := Option.some.inj (ht.symm.trans hb')
      simp [handedTo]
  | closed _ _ _ ht => cases ht.symm.trans hb'

/-! ### The accounts an instruction acts on -/

theorem Ledger.Transferred.isThawed_source {l l' : Ledger} {c : TransferChecked}
    {signer : Pubkey} {n : ℕ} (t : Transferred l c signer n l') : l.IsThawed c.mint c.source := by
  obtain ⟨a, ha, hm, hf, -⟩ := t.source
  exact ⟨a, ha, hm, hf⟩

theorem PoolAccounts.Valid.isStablecoin_mintA {ctx : PoolAccounts} {a : PoolAccounts.Loaded}
    (h : ctx.Valid w a) : w.IsStablecoin ctx.mintA :=
  ⟨a.configA, h.configA_key ▸ h.configA⟩

theorem PoolAccounts.Valid.isStablecoin_mintB {ctx : PoolAccounts} {a : PoolAccounts.Loaded}
    (h : ctx.Valid w a) : w.IsStablecoin ctx.mintB :=
  ⟨a.configB, h.configB_key ▸ h.configB⟩

/-- They are thawed accounts of stablecoins: Token-2022 refuses to move the others. -/
theorem Action.Effect.walletAccounts {a : Action} (h : a.Effect w w')
    (hk : (m, k) ∈ a.walletAccounts) : w.IsStablecoin m ∧ w.ledger.IsThawed m k := by
  cases a with
  | mintTo ctx =>
      obtain ⟨a, l, h⟩ := h
      obtain ⟨rfl, rfl⟩ : m = ctx.mint ∧ k = ctx.destination := by
        simpa [Action.walletAccounts] using hk
      exact ⟨⟨a.config, h.valid.config_key ▸ h.valid.config⟩, h.minted.destination⟩
  | addLiquidity ctx =>
      obtain ⟨a, t, l₁, l₂, l₃, l₄, h⟩ := h
      obtain ⟨rfl, rfl⟩ | ⟨rfl, rfl⟩ : m = ctx.mintA ∧ k = ctx.userA ∨ m = ctx.mintB ∧
          k = ctx.userB := by
        simpa [Action.walletAccounts] using hk
      · exact ⟨h.valid.isStablecoin_mintA, h.paidA.isThawed_source⟩
      · exact ⟨h.valid.isStablecoin_mintB,
          h.paidB.isThawed_source.of_skeleton h.paidA.skeleton.symm⟩
  | removeLiquidity ctx =>
      obtain ⟨a, q, l₁, l₂, l₃, h⟩ := h
      obtain ⟨rfl, rfl⟩ | ⟨rfl, rfl⟩ : m = ctx.mintA ∧ k = ctx.userA ∨ m = ctx.mintB ∧
          k = ctx.userB := by
        simpa [Action.walletAccounts] using hk
      · refine ⟨h.valid.isStablecoin_mintA, ?_⟩
        exact IsThawed.of_skeleton h.burned.skeleton.symm h.paidA.destination
      · refine ⟨h.valid.isStablecoin_mintB, ?_⟩
        refine IsThawed.of_skeleton h.burned.skeleton.symm ?_
        exact IsThawed.of_skeleton h.paidA.skeleton.symm h.paidB.destination
  | swap ctx d =>
      obtain ⟨a, q, l₁, l₂, h⟩ := h
      obtain ⟨rfl, rfl⟩ | ⟨rfl, rfl⟩ : m = ctx.mintA ∧ k = ctx.userA ∨ m = ctx.mintB ∧
          k = ctx.userB := by
        simpa [Action.walletAccounts] using hk
      -- one of the two pays in and the other is paid
      · refine ⟨h.valid.isStablecoin_mintA, ?_⟩
        cases d with
        | aToB => exact h.paidIn.isThawed_source
        | bToA => exact IsThawed.of_skeleton h.paidIn.skeleton.symm h.paidOut.destination
      · refine ⟨h.valid.isStablecoin_mintB, ?_⟩
        cases d with
        | aToB => exact IsThawed.of_skeleton h.paidIn.skeleton.symm h.paidOut.destination
        | bToA => exact h.paidIn.isThawed_source
  | _ => cases hk

/-- **Whose policy a user's account has.** -/
theorem wallet_accounts_vetted {addressBytes : Pubkey → List UInt8} {as : List Action}
    (t : Run step (World.genesis addressBytes) as w) {a : Action} (h : step w a = .ok w')
    (hk : (m, k) ∈ a.walletAccounts) :
    w.IsStablecoin m ∧ ∃ b p, w.ledger.tokens k = some b ∧ b.mint = m ∧ b.state ≠ .frozen ∧
      w.walletPolicies (.walletPolicy m k) = some p ∧ p.mint = m ∧ p.tokenAccount = k ∧
      p.status = .allowed ∧ b.owner = (as.foldl (handedTo m k) none).getD p.owner := by
  have hw : w.Inv := World.Reachable.inv ⟨_, as, ⟨addressBytes, rfl⟩, t⟩
  obtain ⟨hst, b, hb, hbm, hf⟩ := (step_effect hw h).walletAccounts hk
  have hkey := hw.shape.isStablecoin_key hst
  have howned : w.Inv ∧ w.OwnedBy m k (as.foldl (handedTo m k) none) := by
    refine t.history (I := fun g w => w.Inv ∧ w.OwnedBy m k g) ?_
      ⟨inv_genesis addressBytes, fun _ _ h => nomatch h⟩
    rintro g w a w' ⟨hw, hJ⟩ h
    have heff := step_effect hw h
    exact ⟨heff.inv hw, heff.ownedBy hw.shape hkey hJ⟩
  obtain ⟨p, hp, hpm, hpk, hps⟩ := hw.shape.thawed k b hb (hbm ▸ hst) hf
  rw [hbm] at hp hpm
  exact ⟨hst, b, p, hb, hbm, hf, hp, hpm, hpk, hps, howned.2 b p hb hbm hf hp⟩

end

/-- The first swap of the lopsided pool, with accounts that were never handed over. -/
theorem wallet_accounts_vetted_lopsided :
    ∃ b p, lopsided.ledger.tokens Lopsided.userA = some b ∧
      lopsided.walletPolicies (.walletPolicy Lopsided.mintA Lopsided.userA) = some p ∧
      p.status = .allowed ∧ b.owner = p.owner := by
  have hstep : step lopsided (.swap Lopsided.accounts.toPoolAccounts .aToB 1 0) =
      .ok (lopsided.afterAll [.swap Lopsided.accounts.toPoolAccounts .aToB 1 0]) :=
    (run_afterAll (by decide +kernel)).of_one
  obtain ⟨-, b, p, hb, -, -, hp, -, -, hs, ho⟩ :=
    wallet_accounts_vetted lopsided_run hstep List.mem_cons_self
  exact ⟨b, p, hb, hp, hs, ho⟩

namespace Lopsided

/-- A key that no policy names. -/
def stranger : Pubkey := .external 5

/-- The user hands both of its accounts to the stranger. -/
def handover : List Action :=
  [.setOwner userA user stranger, .setOwner userB user stranger]

/-- The stranger trades. -/
def strangerSwap : Action := .swap { accounts.toPoolAccounts with user := stranger } .aToB 1 0

end Lopsided

/-- **An account handed over trades under the policy of its former owner.** -/
theorem handed_over_account_trades :
    (lopsided.afterAll Lopsided.handover).Reachable ∧
    (∃ w', step (lopsided.afterAll Lopsided.handover) Lopsided.strangerSwap = .ok w') ∧
    (Lopsided.mintA, Lopsided.userA) ∈ Lopsided.strangerSwap.walletAccounts ∧
    ∃ b p, (lopsided.afterAll Lopsided.handover).ledger.tokens Lopsided.userA = some b ∧
      (lopsided.afterAll Lopsided.handover).walletPolicies
        (.walletPolicy Lopsided.mintA Lopsided.userA) = some p ∧
      p.status = .allowed ∧ b.owner ≠ p.owner := by
  have hreach : (lopsided.afterAll Lopsided.handover).Reachable :=
    lopsided_reachable.run (run_afterAll (by decide +kernel))
  have hstep : step (lopsided.afterAll Lopsided.handover) Lopsided.strangerSwap =
      .ok ((lopsided.afterAll Lopsided.handover).afterAll [Lopsided.strangerSwap]) :=
    (run_afterAll (by decide +kernel)).of_one
  have hb : ((lopsided.afterAll Lopsided.handover).ledger.tokens Lopsided.userA).map (·.owner) =
      some Lopsided.stranger := by decide +kernel
  have hp : ((lopsided.afterAll Lopsided.handover).walletPolicies
      (.walletPolicy Lopsided.mintA Lopsided.userA)).map (fun p => (p.status, p.owner)) =
      some (.allowed, Lopsided.user) := by decide +kernel
  obtain ⟨b, hb, hbo⟩ := Option.map_eq_some_iff.mp hb
  obtain ⟨p, hp, hpo⟩ := Option.map_eq_some_iff.mp hp
  obtain ⟨hps, hpo⟩ := Prod.mk.inj hpo
  refine ⟨hreach, ⟨_, hstep⟩, List.mem_cons_self, b, p, hb, hp, hps, ?_⟩
  rw [hbo, hpo]
  decide

end StablecoinAmm
