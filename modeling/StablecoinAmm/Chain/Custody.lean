import Mathlib.Order.Basic
import StablecoinAmm.Chain.Movement

/-!
# Chain — what a signature protects

`Spares p l l'`: from `l` to `l'` the accounts of `p` lost nothing and its mints issued nothing.
Every instruction that does not carry the signature of `p` spares it.  The programs' derived
addresses sign only through their programs, so whatever outsiders send, in whatever order, the
vaults and the LP mint of a pool are spared.
-/

namespace StablecoinAmm
open Support

namespace Ledger

/-- **`p` loses nothing and issues nothing.** -/
structure Spares (p : Pubkey) (l l' : Ledger) : Prop where
  account : ∀ k m, l.HasAccount k m p → l'.HasAccount k m p ∧ l.balance k ≤ l'.balance k
  mint : ∀ m M, l.mints m = some M → M.mintAuthority = some p →
    ∃ M', l'.mints m = some M' ∧ M'.mintAuthority = some p ∧ l'.supply m ≤ l.supply m

namespace Spares

variable {p : Pubkey} {l l' l₁ : Ledger}

theorem refl (p : Pubkey) (l : Ledger) : Spares p l l :=
  ⟨fun _ _ h => ⟨h, le_rfl⟩, fun _ M hM ha => ⟨M, hM, ha, le_rfl⟩⟩

theorem trans (h₁ : Spares p l l₁) (h₂ : Spares p l₁ l') : Spares p l l' where
  account k m hk := by
    obtain ⟨hk₁, hle₁⟩ := h₁.account k m hk
    obtain ⟨hk₂, hle₂⟩ := h₂.account k m hk₁
    exact ⟨hk₂, hle₁.trans hle₂⟩
  mint m M hM ha := by
    obtain ⟨M₁, hM₁, ha₁, hle₁⟩ := h₁.mint m M hM ha
    obtain ⟨M₂, hM₂, ha₂, hle₂⟩ := h₂.mint m M₁ hM₁ ha₁
    exact ⟨M₂, hM₂, ha₂, hle₂.trans hle₁⟩

/-- Only amounts change. -/
theorem of_moved (h : Moved l l') (hb : ∀ k m, l.HasAccount k m p → l.balance k ≤ l'.balance k)
    (hs : ∀ m M, l.mints m = some M → M.mintAuthority = some p → l'.supply m ≤ l.supply m) :
    Spares p l l' where
  account k m hk := ⟨hk.of_skeleton h.skeleton, hb k m hk⟩
  mint m M hM ha := ⟨_, mint_of_skeleton h.skeleton hM, ha, hs m M hM ha⟩

theorem of_transferred {c : TransferChecked} {signer : Pubkey} {n : ℕ}
    (t : Transferred l c signer n l') (hp : signer ≠ p) : Spares p l l' := by
  refine .of_moved t.toMoved ?_ fun m _ _ _ => (t.supplies m).le
  intro k m hk
  obtain ⟨a, ha, -, -, ho⟩ := t.source
  have hne : k ≠ c.source := hk.ne_of_owner ⟨a, ha, rfl, ho.trans t.signed⟩ hp.symm
  have hb := t.balances k
  rw [if_neg hne] at hb
  omega

theorem of_minted {c : MintToChecked} {signer : Pubkey} {n : ℕ}
    (t : Minted l c signer n l') (hp : signer ≠ p) : Spares p l l' := by
  refine .of_moved t.toMoved ?_ ?_
  · intro k _ _
    rw [t.balances]; exact Nat.le_add_right _ _
  · intro m M hM ha
    obtain ⟨N, hN, hauth⟩ := t.authority
    have hne : m ≠ c.mint := by
      rintro rfl
      obtain rfl := Option.some.inj (hM.symm.trans hN)
      exact hp (Option.some.inj (hauth.symm.trans ha))
    rw [t.supplies, if_neg hne]; rfl

theorem of_burned {c : BurnChecked} {signer : Pubkey} {n : ℕ}
    (t : Burned l c signer n l') (hp : signer ≠ p) : Spares p l l' := by
  refine .of_moved t.toMoved ?_ ?_
  · intro k m hk
    obtain ⟨a, ha, -, -, ho⟩ := t.source
    have hne : k ≠ c.source := hk.ne_of_owner ⟨a, ha, rfl, ho.trans t.signed⟩ hp.symm
    have hb := t.balances k
    rw [if_neg hne] at hb
    omega
  · intro m _ _ _
    have := t.supplies m
    omega

/-- One address changes, and what `p` has there survives. -/
theorem of_tokens {k : Pubkey} (hm : l'.mints = l.mints)
    (ht : ∀ j, j ≠ k → l'.tokens j = l.tokens j)
    (hk : ∀ m, l.HasAccount k m p → l'.HasAccount k m p ∧ l.balance k ≤ l'.balance k) :
    Spares p l l' where
  account j m hj := by
    by_cases hjk : j = k
    · exact hjk ▸ hk m (hjk ▸ hj)
    · refine ⟨?_, ?_⟩
      · rw [HasAccount, ht j hjk]; exact hj
      · rw [balance, balance, ht j hjk]
  mint m M hM ha := ⟨M, hm ▸ hM, ha, by rw [supply, supply, hm]⟩

/-- An account is rewritten with its mint, owner and amount kept. -/
theorem setToken {k : Pubkey} {a b : TokenAccount} (h : l.tokens k = some a)
    (hm : b.mint = a.mint) (ho : b.owner = a.owner) (hn : b.amount = a.amount) :
    Spares p l (l.setToken k b) := by
  have hb : (l.setToken k b).tokens k = some b := setToken_tokens_self ..
  refine .of_tokens rfl (fun j hj => setToken_tokens_of_ne _ _ _ hj) ?_
  rintro m ⟨a', ha', rfl, rfl⟩
  obtain rfl := Option.some.inj (h.symm.trans ha')
  exact ⟨⟨b, hb, hm, ho⟩, by rw [balance_of h, balance_of hb, hn]⟩

/-- An address `p` has no account at may be rewritten, or cleared. -/
theorem elsewhere {k : Pubkey} (hm : l'.mints = l.mints)
    (ht : ∀ j, j ≠ k → l'.tokens j = l.tokens j) (hk : ∀ m, ¬ l.HasAccount k m p) :
    Spares p l l' :=
  .of_tokens hm ht fun m h => absurd h (hk m)

/-- A mint is created, or rewritten with its supply and mint authority kept. -/
theorem setMint {m : Pubkey} {M : Mint}
    (h : ∀ N, l.mints m = some N → M.mintAuthority = N.mintAuthority ∧ M.supply = N.supply) :
    Spares p l (l.setMint m M) where
  account k _ hk := ⟨hk, le_rfl⟩
  mint j N hN ha := by
    by_cases hj : j = m
    · subst hj
      have hM : (l.setMint j M).mints j = some M := setMint_mints_self ..
      obtain ⟨hauth, hsup⟩ := h N hN
      exact ⟨M, hM, hauth.trans ha, by rw [supply_of hM, supply_of hN, hsup]⟩
    · have hset : (l.setMint m M).mints j = l.mints j := setMint_mints_of_ne _ _ _ hj
      exact ⟨N, hset.trans hN, ha, by rw [supply, supply, hset]⟩

end Spares

end Ledger

end StablecoinAmm
