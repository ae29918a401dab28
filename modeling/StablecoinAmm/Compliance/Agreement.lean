import StablecoinAmm.Compliance.Accounts

/-!
# Compliance — policies and frozen accounts

A policy and the state of its account are set together, but an account can be closed and created
again while its policy remains.  A new account of a stablecoin is frozen, so if the policy that
remains says `Allowed`, the two disagree (`policy_disagrees`).  That is the only way: they agree
in every state of a run exactly if the run creates no account where such a policy remains
(`policy_agrees`).
-/

namespace StablecoinAmm
open Support Ledger

/-- Every policy of an existing account of a stablecoin agrees with the account's state. -/
def World.PolicyAgrees (w : World) : Prop :=
  ∀ k a p, w.ledger.tokens k = some a → w.IsStablecoin a.mint →
    w.walletPolicies (.walletPolicy a.mint k) = some p → (p.status = .blocked ↔ a.state = .frozen)

/-- The action creates no account of a stablecoin where a policy says `Allowed`. -/
def Action.Fresh (w : World) : Action → Prop
  | .createAccount account mint _ _ => w.IsStablecoin mint → ¬ w.IsAllowed mint account
  | _ => True

/-- An allowed account of a stablecoin is thawed. -/
def World.Prompt (w : World) : Prop :=
  ∀ k a, w.ledger.tokens k = some a → (∃ s, a.mint = .mint s) → w.IsAllowed a.mint k →
    a.state ≠ .frozen

section
variable {w w' : World}

/-- Thawed accounts are allowed in any case, so only this is needed. -/
theorem World.Prompt.policyAgrees (h : w.Prompt) (hs : w.Shape) : w.PolicyAgrees := by
  intro k a p ha hst hp
  constructor
  · intro hb
    by_contra hf
    obtain ⟨q, hq, -, -, hq'⟩ := hs.thawed k a ha hst hf
    obtain rfl := Option.some.inj (hp.symm.trans hq)
    cases hb.symm.trans hq'
  · intro hf
    have hkey := Pubkey.walletPolicy.inj (hs.policy _ p hp)
    cases hst' : p.status with
    | blocked => rfl
    | allowed =>
        have hal : w.IsAllowed a.mint k := ⟨p, hp, hkey.1.symm, hkey.2.symm, hst'⟩
        exact absurd hf (h k a ha (hs.isStablecoin_key hst) hal)

/-- A policy that stays, stays allowed. -/
theorem World.IsAllowed.of_eq {m k : Pubkey} (h : w'.IsAllowed m k)
    (hp : w'.walletPolicies (.walletPolicy m k) = w.walletPolicies (.walletPolicy m k)) :
    w.IsAllowed m k := by
  rwa [IsAllowed, ← hp]

/-- **A step that creates no account where a policy says `Allowed`.** -/
theorem Action.Effect.prompt (hs : w.Shape) (hA : w.Anchored) (hJ : w.Prompt) {a : Action}
    (hf : a.Fresh w) (h : a.Effect w w') : w'.Prompt := by
  intro k b' hb' hm hal
  cases h.accountStep hs k with
  | kept _ ht hp =>
      obtain ⟨b, hb, hbm, -, hst⟩ := token_of_erase ht hb'
      rw [← hbm] at hal hm
      exact hst ▸ hJ k b hb hm (hal.of_eq (hp _))
  | @vetted _ _ _ b p _ hb hbm ht hpol _ hst =>
      obtain rfl := Option.some.inj (ht.symm.trans hb')
      dsimp only at hal ⊢
      rw [hbm] at hal
      obtain ⟨q, hq, -, -, hq'⟩ := hal
      obtain rfl := Option.some.inj (hpol.symm.trans hq)
      rw [← hst, hq']
      exact nofun
  | created _ hM ht hp =>
      obtain rfl := Option.some.inj (ht.symm.trans hb')
      exact absurd (hal.of_eq (hp _)) (hf (hs.isStablecoin_of_mint hM hm))
  | opened hk hfree _ _ _ hp =>
      -- no policy waits for an account of a pool
      obtain ⟨q, hq, -⟩ := hal.of_eq (hp _)
      obtain ⟨b, hb⟩ := hA.policy _ k q hq hk
      cases hfree.symm.trans hb
  | handed _ hb _ ht hp =>
      have hthawed := hJ k _ hb
      obtain rfl := Option.some.inj (ht.symm.trans hb')
      exact hthawed hm (hal.of_eq (hp _))
  | closed _ _ _ ht => cases ht.symm.trans hb'

/-- An account created where a policy says `Allowed` is frozen all the same. -/
theorem Action.Effect.disagrees (hs : w.Shape) {a : Action} (hf : ¬ a.Fresh w)
    (h : a.Effect w w') : ¬ w'.PolicyAgrees := by
  intro hagree
  cases a with
  | createAccount account mint owner immutableOwner =>
      obtain ⟨⟨c, hc⟩, hal⟩ := Classical.not_imp.mp hf
      obtain ⟨q, hq, -, -, hq'⟩ := not_not.mp hal
      obtain ⟨M, -, hM, -, h⟩ := h
      subst h
      have hfrozen := (hagree account _ q (setToken_tokens_self ..) ⟨c, hc⟩ hq).mpr
        (hs.configured hc hM).2
      cases hq'.symm.trans hfrozen
  | _ => exact hf trivial

/-- **Policies agree with the ledger all along a run exactly if it creates no account under an
old one.** -/
theorem policy_agrees {addressBytes : Pubkey → List UInt8} {as : List Action}
    (t : Run step (World.genesis addressBytes) as w) :
    Throughout step World.PolicyAgrees (World.genesis addressBytes) as ↔
      Along step (fun w a => a.Fresh w) (World.genesis addressBytes) as := by
  constructor
  · intro hagree bs a cs w₁ has hr
    by_contra hf
    have hw : w₁.Inv := hr.invariant step_inv (inv_genesis addressBytes)
    -- the step after `bs` is the run's own
    subst has
    obtain ⟨w₂, h₁, h₂⟩ := t.split
    obtain rfl := hr.unique h₁
    cases h₂ with
    | @more _ w₃ _ _ _ h _ =>
        have hr' : Run step _ (bs ++ [a]) w₃ := hr.append (.one h)
        exact (step_effect hw h).disagrees hw.shape hf (hagree (bs ++ [a]) cs w₃ (by simp) hr')
  · intro hfresh bs cs w₁ has hr
    have hinv := Run.throughout (I := fun w => w.Inv ∧ w.Anchored ∧ w.Prompt) ?_
      ⟨inv_genesis addressBytes, anchored_genesis addressBytes, fun _ _ h => nomatch h⟩ hfresh
      bs cs w₁ has hr
    · exact hinv.2.2.policyAgrees hinv.1.shape
    rintro w a w' ⟨hw, hA, hJ⟩ hf h
    have heff := step_effect hw h
    exact ⟨heff.inv hw, heff.anchored hw.shape hA, heff.prompt hw.shape hA hJ hf⟩

end

namespace Lopsided

/-- The first account of the first stablecoin, allowed. -/
def firstAccount : List Action :=
  [.initializeStablecoin { payer := issuer, mint := mintA, config := .config mintA } symbolA [1] [1]
      stablecoinDecimals maxSupplyCap,
    .createAccount userA mintA user false,
    allow mintA userA]

/-- An account allowed, closed while empty, and created again at its address. -/
def reopening : List Action :=
  [.createAccount (.external 5) mintA user false,
    allow mintA (.external 5),
    .closeAccount (.external 5) user,
    .createAccount (.external 5) mintA user false]

end Lopsided

theorem policy_agrees_firstAccount :
    Throughout step World.PolicyAgrees (World.genesis Lopsided.addressBytes)
      Lopsided.firstAccount := by
  have hrun : Run step (World.genesis Lopsided.addressBytes) Lopsided.firstAccount
      ((World.genesis Lopsided.addressBytes).afterAll Lopsided.firstAccount) :=
    run_afterAll (by decide +kernel)
  refine (policy_agrees hrun).mpr ?_
  intro bs a cs w₁ has hr
  -- only the second action creates an account, and no policy is there yet
  rcases bs with _ | ⟨b, _ | ⟨c, _ | ⟨d, bs⟩⟩⟩ <;>
    simp only [Lopsided.firstAccount, List.nil_append, List.cons_append, List.cons.injEq] at has
  · obtain ⟨rfl, -⟩ := has
    trivial
  · obtain ⟨rfl, rfl, -⟩ := has
    obtain rfl := hr.unique (run_afterAll (by decide +kernel))
    rintro - ⟨q, hq, -⟩
    cases (show World.walletPolicies _ _ = none by decide +kernel).symm.trans hq
  · obtain ⟨-, -, rfl, -⟩ := has
    trivial
  · obtain ⟨-, -, -, h⟩ := has
    cases bs <;> cases h

/-- **A policy that its account does not keep.** -/
theorem policy_disagrees : (lopsided.afterAll Lopsided.reopening).Reachable ∧
    ¬ (lopsided.afterAll Lopsided.reopening).PolicyAgrees := by
  have hrun : Run step lopsided Lopsided.reopening (lopsided.afterAll Lopsided.reopening) :=
    run_afterAll (by decide +kernel)
  have ha : (lopsided.afterAll Lopsided.reopening).ledger.tokens (.external 5) =
      some (emptyAccount Lopsided.mintA Lopsided.user .frozen false) := by decide +kernel
  have hst : (lopsided.afterAll Lopsided.reopening).IsStablecoin Lopsided.mintA :=
    Option.isSome_iff_exists.mp (by decide +kernel)
  have hp : ((lopsided.afterAll Lopsided.reopening).walletPolicies
      (.walletPolicy Lopsided.mintA (.external 5))).map (·.status) = some .allowed := by
    decide +kernel
  obtain ⟨p, hp, hs⟩ := Option.map_eq_some_iff.mp hp
  refine ⟨lopsided_reachable.run hrun, fun hagree => ?_⟩
  cases hs.symm.trans ((hagree _ _ p ha hst hp).mpr rfl)

end StablecoinAmm
