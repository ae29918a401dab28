import StablecoinAmm.System.History

/-!
# Compliance — what happens to an account and its policies

Thirteen of the actions leave every account its mint, owner and state, and every policy
(`Action.KeepsAccounts`, `Effect.sameAccounts`).  The other five write one account, or the
accounts of a new pool.  `AccountStep` says what a step can do to one account and to the policies
for it; an invariant about accounts and policies is proved from its six cases
(`Effect.accountStep`).

The first one is that the accounts of a pool are there for good (`Anchored`).
-/

namespace StablecoinAmm
open Support Ledger

/-- The action creates, closes and rewrites no account, and no policy. -/
def Action.KeepsAccounts : Action → Bool
  | .setWalletPolicy .. | .initializePool .. | .createAccount .. | .setOwner ..
  | .closeAccount .. => false
  | _ => true

/-- Mint, owner and state of every account are as before, and so are the policies. -/
structure World.SameAccounts (w w' : World) : Prop where
  tokens : ∀ k, (w'.ledger.tokens k).map TokenAccount.erase =
    (w.ledger.tokens k).map TokenAccount.erase
  walletPolicies : w'.walletPolicies = w.walletPolicies

section
variable {w w' : World}

/-- A mint at the address of a stablecoin is one. -/
theorem World.Shape.isStablecoin_of_mint (hs : w.Shape) {m : Pubkey} {M : Mint}
    (hM : w.ledger.mints m = some M) (hm : ∃ s, m = .mint s) : w.IsStablecoin m := by
  rcases hs.mint m M hM with ⟨-, hst⟩ | ⟨p, P, hp, -⟩
  · exact hst
  · obtain ⟨s, hs'⟩ := hm
    cases hs'.symm.trans hp

/-- And it freezes new accounts. -/
theorem World.Shape.freezes (hs : w.Shape) {m : Pubkey} {M : Mint}
    (hM : w.ledger.mints m = some M) (hm : ∃ s, m = .mint s) : M.defaultState = .frozen := by
  obtain ⟨c, hc⟩ := hs.isStablecoin_of_mint hM hm
  exact (hs.configured hc hM).2

theorem World.SameAccounts.of_moved {l : Ledger} (h : Moved w.ledger l)
    (hl : w'.ledger = l) (hp : w'.walletPolicies = w.walletPolicies) : w.SameAccounts w' := by
  subst hl
  exact ⟨fun k => congrFun (congrArg Ledger.tokens h.skeleton) k, hp⟩

theorem World.SameAccounts.of_tokens (ht : w'.ledger.tokens = w.ledger.tokens)
    (hp : w'.walletPolicies = w.walletPolicies) : w.SameAccounts w' :=
  ⟨fun k => by rw [ht], hp⟩

theorem Action.Effect.sameAccounts {a : Action} (h : a.Effect w w') (ha : a.KeepsAccounts) :
    w.SameAccounts w' := by
  cases a with
  | setWalletPolicy | initializePool | createAccount | setOwner | closeAccount => cases ha
  | initializeStablecoin =>
      obtain ⟨M, c, h⟩ := h
      rw [h.result]; exact .of_tokens rfl rfl
  | grantMinter | revokeMinter => rw [h]; exact .of_tokens rfl rfl
  | acceptAdmin =>
      obtain ⟨c, -, -, h⟩ := h
      rw [h]; exact .of_tokens rfl rfl
  | updateConfig =>
      obtain ⟨c, h⟩ := h
      rw [h.result]; exact .of_tokens rfl rfl
  | setPause =>
      obtain ⟨c, M, p, h⟩ := h
      rw [h.result]; exact .of_tokens rfl rfl
  | mintTo =>
      obtain ⟨a, l, h⟩ := h
      rw [h.result]; exact .of_moved h.minted.toMoved rfl rfl
  | burn =>
      obtain ⟨c, l, h⟩ := h
      rw [h.result]; exact .of_moved h.burned.toMoved rfl rfl
  | addLiquidity =>
      obtain ⟨a, t, l₁, l₂, l₃, l₄, h⟩ := h
      rw [h.result]
      exact .of_moved (h.paidA.toMoved.trans (h.paidB.toMoved.trans
        (h.locked.moved.trans h.minted.toMoved))) rfl rfl
  | removeLiquidity =>
      obtain ⟨a, q, l₁, l₂, l₃, h⟩ := h
      rw [h.result]
      exact .of_moved (h.burned.toMoved.trans (h.paidA.toMoved.trans h.paidB.toMoved)) rfl rfl
  | swap =>
      obtain ⟨a, q, l₁, l₂, h⟩ := h
      rw [h.result]; exact .of_moved (h.paidIn.toMoved.trans h.paidOut.toMoved) rfl rfl
  | transfer | burnDirect =>
      obtain ⟨l, -, h, hw⟩ := h
      rw [hw]; exact .of_moved h.toMoved rfl rfl

/-! ### One account -/

/-- The account whose owner or policy the action writes, if any. -/
def Action.subject : Action → Option Pubkey
  | .setWalletPolicy ctx .. => some ctx.tokenAccount
  | .createAccount account .. | .setOwner account .. | .closeAccount account .. => some account
  | _ => none

/-- The policies for `k` are as before. -/
def World.SamePolicies (w w' : World) (k : Pubkey) : Prop :=
  ∀ m, w'.walletPolicies (.walletPolicy m k) = w.walletPolicies (.walletPolicy m k)

/-- **What a step does to the account at `k`** and to the policies for it. -/
inductive World.AccountStep (w w' : World) (k : Pubkey) : Action → Prop where
  /-- At most its amount changes. -/
  | kept {a : Action} (ha : a.subject ≠ some k)
      (ht : (w'.ledger.tokens k).map TokenAccount.erase =
        (w.ledger.tokens k).map TokenAccount.erase) (hp : w.SamePolicies w' k) :
      AccountStep w w' k a
  /-- A policy for it is set, and its state with the policy. -/
  | vetted {ctx : SetWalletPolicy} {status : PolicyStatus} {t : ℤ} {b : TokenAccount}
      {p : WalletPolicy} (hk : ctx.tokenAccount = k) (hb : w.ledger.tokens k = some b)
      (hm : b.mint = ctx.mint)
      (ht : w'.ledger.tokens k = some { b with state := status.accountState })
      (hpol : w'.walletPolicies (.walletPolicy ctx.mint k) = some p) (ho : p.owner = b.owner)
      (hst : p.status = status)
      (hp : ∀ m, m ≠ ctx.mint →
        w'.walletPolicies (.walletPolicy m k) = w.walletPolicies (.walletPolicy m k)) :
      AccountStep w w' k (.setWalletPolicy ctx status t)
  /-- It is created at the address of a key. -/
  | created {m o : Pubkey} {immutableOwner : Bool} {M : Mint} (hk : k.isSigner)
      (hM : w.ledger.mints m = some M)
      (ht : w'.ledger.tokens k = some (emptyAccount m o M.defaultState immutableOwner))
      (hp : w.SamePolicies w' k) : AccountStep w w' k (.createAccount k m o immutableOwner)
  /-- It is created for a pool. -/
  | opened {ctx : InitializePool} {feeBps : ℕ} {m : Pubkey} {state : AccountState}
      (hk : ¬ k.isSigner) (hfree : w.ledger.tokens k = none) (ho : ¬ ctx.pool.isSigner)
      (ht : w'.ledger.tokens k = some (emptyAccount m ctx.pool state false))
      (hf : (∃ s, m = .mint s) → state = .frozen) (hp : w.SamePolicies w' k) :
      AccountStep w w' k (.initializePool ctx feeBps)
  /-- Its owner, a key, hands it over. -/
  | handed {o newOwner : Pubkey} {b : TokenAccount} (hs : o.isSigner)
      (hb : w.ledger.tokens k = some b) (ho : b.owner = o)
      (ht : w'.ledger.tokens k = some { b with owner := newOwner }) (hp : w.SamePolicies w' k) :
      AccountStep w w' k (.setOwner k o newOwner)
  /-- Its owner, a key, closes it. -/
  | closed {o : Pubkey} {b : TokenAccount} (hs : o.isSigner) (hb : w.ledger.tokens k = some b)
      (ho : b.owner = o) (ht : w'.ledger.tokens k = none) (hp : w.SamePolicies w' k) :
      AccountStep w w' k (.closeAccount k o)

/-- Where mint, owner and state are kept, a thawed or frozen account was one before. -/
theorem token_of_erase {k : Pubkey} {a' : TokenAccount}
    (h : (w'.ledger.tokens k).map TokenAccount.erase =
      (w.ledger.tokens k).map TokenAccount.erase) (ha' : w'.ledger.tokens k = some a') :
    ∃ a, w.ledger.tokens k = some a ∧ a.mint = a'.mint ∧ a.owner = a'.owner ∧
      a.state = a'.state := by
  obtain ⟨a, ha, he⟩ := exists_of_map_eq h.symm ha'
  refine ⟨a, ha, ?_⟩
  cases a; cases a'
  simp only [TokenAccount.erase, TokenAccount.mk.injEq] at he
  obtain ⟨rfl, rfl, -, rfl, -⟩ := he
  exact ⟨rfl, rfl, rfl⟩

theorem SetWalletPolicy.Effect.accountStep {ctx : SetWalletPolicy} {status : PolicyStatus} {t : ℤ}
    {c : MintConfig} {b : TokenAccount} (h : ctx.Effect w status t c b w') (k : Pubkey) :
    w.AccountStep w' k (.setWalletPolicy ctx status t) := by
  rw [h.result]
  by_cases hk : ctx.tokenAccount = k
  · subst hk
    refine .vetted rfl h.account h.account_mint (setToken_tokens_self ..)
      (World.setWalletPolicy_walletPolicies_self ..) rfl rfl ?_
    intro m hm
    have hne : Pubkey.walletPolicy m ctx.tokenAccount ≠ .walletPolicy ctx.mint ctx.tokenAccount :=
      fun e => hm (Pubkey.walletPolicy.inj e).1
    exact World.setWalletPolicy_walletPolicies_of_ne _ _ _ hne
  · refine .kept (fun e => hk (Option.some.inj e)) ?_ ?_
    · exact congrArg _ (setToken_tokens_of_ne _ _ _ (Ne.symm hk))
    · intro m
      have hne : Pubkey.walletPolicy m k ≠ .walletPolicy ctx.mint ctx.tokenAccount :=
        fun e => hk (Pubkey.walletPolicy.inj e).2.symm
      exact World.setWalletPolicy_walletPolicies_of_ne _ _ _ hne

theorem InitializePool.Effect.accountStep (hs : w.Shape) {ctx : InitializePool} {feeBps : ℕ}
    {mA mB : Mint} (h : ctx.Effect w feeBps mA mB w') (k : Pubkey) :
    w.AccountStep w' k (.initializePool ctx feeBps) := by
  have hpool : ¬ ctx.pool.isSigner := by rw [h.pool_key]; exact nofun
  rw [h.result]
  by_cases hkA : k = .vault ctx.pool ctx.mintA
  · subst hkA
    exact .opened nofun h.vaultA_free hpool (openPool_vaultA _ _ _ _ _ _ h.mints_ne)
      (hs.freezes h.mintA) fun _ => rfl
  by_cases hkB : k = .vault ctx.pool ctx.mintB
  · subst hkB
    exact .opened nofun h.vaultB_free hpool (openPool_vaultB ..) (hs.freezes h.mintB) fun _ => rfl
  by_cases hkL : k = .lockedLp ctx.pool
  · subst hkL
    exact .opened nofun h.lockedLp_free hpool (openPool_lockedLp ..) nofun fun _ => rfl
  exact .kept nofun (congrArg _ (openPool_tokens_of_ne _ _ _ _ _ _ hkA hkB hkL)) fun _ => rfl

/-- **One step, one account.** -/
theorem Action.Effect.accountStep (hs : w.Shape) {a : Action} (h : a.Effect w w') (k : Pubkey) :
    w.AccountStep w' k a := by
  cases a with
  | setWalletPolicy =>
      obtain ⟨c, b, h⟩ := h
      exact h.accountStep k
  | initializePool =>
      obtain ⟨mA, mB, h⟩ := h
      exact h.accountStep hs k
  | createAccount account =>
      obtain ⟨M, hsig, hM, -, h⟩ := h
      subst h
      by_cases hk : account = k
      · subst hk
        exact .created hsig hM (setToken_tokens_self ..) fun _ => rfl
      · refine .kept (fun e => hk (Option.some.inj e)) ?_ fun _ => rfl
        exact congrArg _ (setToken_tokens_of_ne _ _ _ (Ne.symm hk))
  | setOwner account =>
      obtain ⟨b, hsig, hb, -, ho, -, h⟩ := h
      subst h
      by_cases hk : account = k
      · subst hk
        exact .handed hsig hb ho (setToken_tokens_self ..) fun _ => rfl
      · refine .kept (fun e => hk (Option.some.inj e)) ?_ fun _ => rfl
        exact congrArg _ (setToken_tokens_of_ne _ _ _ (Ne.symm hk))
  | closeAccount account =>
      obtain ⟨b, hsig, hb, -, ho, h⟩ := h
      subst h
      by_cases hk : account = k
      · subst hk
        exact .closed hsig hb ho (Function.update_self ..) fun _ => rfl
      · refine .kept (fun e => hk (Option.some.inj e)) ?_ fun _ => rfl
        exact congrArg _ (Function.update_of_ne (Ne.symm hk) ..)
  | _ =>
      have hsame := h.sameAccounts rfl
      exact .kept nofun (hsame.tokens k) fun _ => by rw [hsame.walletPolicies]

/-! ### Accounts that stay -/

/-- An account at a derived address has an owner that no key signs for, and stays: a policy for
it is a policy for an account that exists. -/
structure World.Anchored (w : World) : Prop where
  owner : ∀ k a, w.ledger.tokens k = some a → ¬ k.isSigner → ¬ a.owner.isSigner
  policy : ∀ m k p, w.walletPolicies (.walletPolicy m k) = some p → ¬ k.isSigner →
    ∃ a, w.ledger.tokens k = some a

theorem anchored_genesis (addressBytes : Pubkey → List UInt8) :
    (World.genesis addressBytes).Anchored where
  owner _ _ h := nomatch h
  policy _ _ _ h := nomatch h

theorem World.AccountStep.anchored_owner (hA : w.Anchored) {k : Pubkey} {a : Action}
    (h : w.AccountStep w' k a) {b' : TokenAccount} (hb' : w'.ledger.tokens k = some b')
    (hk : ¬ k.isSigner) : ¬ b'.owner.isSigner := by
  cases h with
  | kept _ ht =>
      obtain ⟨b, hb, -, ho, -⟩ := token_of_erase ht hb'
      exact ho ▸ hA.owner k b hb hk
  | vetted _ hb _ ht =>
      have ho := hA.owner k _ hb hk
      obtain rfl := Option.some.inj (ht.symm.trans hb')
      exact ho
  | created hk' => exact absurd hk' hk
  | opened _ _ ho ht =>
      obtain rfl := Option.some.inj (ht.symm.trans hb')
      exact ho
  | handed hs hb ho => exact absurd (ho ▸ hs) (hA.owner k _ hb hk)
  | closed hs hb ho => exact absurd (ho ▸ hs) (hA.owner k _ hb hk)

theorem World.AccountStep.anchored_policy (hA : w.Anchored) {m k : Pubkey} {a : Action}
    (h : w.AccountStep w' k a) {p : WalletPolicy}
    (hpol : w'.walletPolicies (.walletPolicy m k) = some p) (hk : ¬ k.isSigner) :
    ∃ b, w'.ledger.tokens k = some b := by
  cases h with
  | kept _ ht hp =>
      obtain ⟨b, hb⟩ := hA.policy m k p ((hp m).symm.trans hpol) hk
      obtain ⟨b', hb', -⟩ := exists_of_map_eq ht hb
      exact ⟨b', hb'⟩
  | vetted _ _ _ ht => exact ⟨_, ht⟩
  | created _ _ ht => exact ⟨_, ht⟩
  | opened _ _ _ ht => exact ⟨_, ht⟩
  | handed _ _ _ ht => exact ⟨_, ht⟩
  | closed hs hb ho => exact absurd (ho ▸ hs) (hA.owner k _ hb hk)

/-- **The accounts of pools stay.** -/
theorem Action.Effect.anchored (hs : w.Shape) (hA : w.Anchored) {a : Action}
    (h : a.Effect w w') : w'.Anchored where
  owner k _ hb hk := (h.accountStep hs k).anchored_owner hA hb hk
  policy _ k _ hp hk := (h.accountStep hs k).anchored_policy hA hp hk

end

end StablecoinAmm
