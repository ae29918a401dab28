import StablecoinAmm.Chain.Conservation
import StablecoinAmm.Stablecoin.State
import StablecoinAmm.Support.Agreement

/-!
# Chain — two ledgers side by side

`Alike donor l l'`: the ledgers have the same accounts and mints, and the same amounts but for
what is `Apart` — the vaults, which anyone can send tokens to, and the accounts of donors — and
for the supplies of stablecoins.

* `Alike.transferred`, `Alike.minted`, `Alike.burned`: the same movement keeps two ledgers alike.
* `transferChecked_agree`, `mintToChecked_agree`, `burnChecked_agree`: the same instruction
  succeeds in both or fails with the same error, if the amounts it checks are the same or suffice
  in both.
-/

namespace StablecoinAmm
open Support

theorem TokenAccount.eq_of_erase {a b : TokenAccount} (h : b.erase = a.erase) :
    b = { a with amount := b.amount } := by
  cases a; cases b
  simp only [erase, TokenAccount.mk.injEq] at h
  obtain ⟨rfl, rfl, -, rfl, rfl⟩ := h
  rfl

theorem Mint.eq_of_erase {M N : Mint} (h : N.erase = M.erase) :
    N = { M with supply := N.supply } := by
  cases M; cases N
  simp only [erase, Mint.mk.injEq] at h
  obtain ⟨rfl, -, rfl, rfl, rfl, rfl, rfl, rfl⟩ := h
  rfl

namespace Ledger

/-- A vault, or an account of a donor. -/
def Apart (donor : Pubkey → Prop) (l : Ledger) (k : Pubkey) : Prop :=
  (∃ p m, k = .vault p m) ∨ ∃ m o, l.HasAccount k m o ∧ o.isSigner ∧ donor o

/-- **The ledgers differ in what donors have and give at most.** -/
structure Alike (donor : Pubkey → Prop) (l l' : Ledger) : Prop where
  skeleton : l'.skeleton = l.skeleton
  balance : ∀ k, ¬ l.Apart donor k → l'.balance k = l.balance k
  lpSupply : ∀ p, l'.supply (.lpMint p) = l.supply (.lpMint p)

section
variable {donor : Pubkey → Prop} {l l' l₁ l₁' : Ledger}

theorem token_map (h : l'.skeleton = l.skeleton) (k : Pubkey) :
    (l'.tokens k).map TokenAccount.erase = (l.tokens k).map TokenAccount.erase :=
  congrFun (congrArg Ledger.tokens h) k

theorem mint_map (h : l'.skeleton = l.skeleton) (m : Pubkey) :
    (l'.mints m).map Mint.erase = (l.mints m).map Mint.erase :=
  congrFun (congrArg Ledger.mints h) m

theorem isNone_of_map {α β : Type} {f : α → β} {o o' : Option α} (h : o'.map f = o.map f) :
    o.isNone ↔ o'.isNone := by
  rw [← Option.isNone_map (f := f), ← h, Option.isNone_map]

/-- What is apart does not depend on amounts. -/
theorem Apart.of_skeleton (h : l'.skeleton = l.skeleton) {k : Pubkey} (hk : l.Apart donor k) :
    l'.Apart donor k := by
  rcases hk with hv | ⟨m, o, hk, ho⟩
  · exact .inl hv
  · exact .inr ⟨m, o, hk.of_skeleton h, ho⟩

/-- An account of someone else, at another address than a vault's, is not apart. -/
theorem HasAccount.not_apart {k m o : Pubkey} (h : l.HasAccount k m o)
    (ho : o.isSigner → ¬ donor o) (hk : ∀ p m, k ≠ .vault p m) : ¬ l.Apart donor k := by
  rintro (⟨p, m', rfl⟩ | ⟨m', o', h', hs, hd⟩)
  · exact hk p m' rfl
  · exact h.ne_of_owner h' (fun e => ho (e ▸ hs) (e ▸ hd)) rfl

namespace Alike

theorem refl (donor : Pubkey → Prop) (l : Ledger) : Alike donor l l :=
  ⟨rfl, fun _ _ => rfl, fun _ => rfl⟩

theorem symm (h : Alike donor l l') : Alike donor l' l where
  skeleton := h.skeleton.symm
  balance k hk := (h.balance k fun ha => hk (ha.of_skeleton h.skeleton)).symm
  lpSupply p := (h.lpSupply p).symm

theorem trans (h : Alike donor l l₁) (h' : Alike donor l₁ l') : Alike donor l l' where
  skeleton := h'.skeleton.trans h.skeleton
  balance k hk :=
    (h'.balance k fun ha => hk (ha.of_skeleton h.skeleton.symm)).trans (h.balance k hk)
  lpSupply p := (h'.lpSupply p).trans (h.lpSupply p)

theorem of_moved (h : Alike donor l l') (hm : Moved l l₁) (hm' : Moved l' l₁')
    (hb : ∀ k, l'.balance k = l.balance k → l₁'.balance k = l₁.balance k)
    (hs : ∀ m, l'.supply m = l.supply m → l₁'.supply m = l₁.supply m) : Alike donor l₁ l₁' where
  skeleton := hm'.skeleton.trans (h.skeleton.trans hm.skeleton.symm)
  balance k hk := hb k (h.balance k fun ha => hk (ha.of_skeleton hm.skeleton))
  lpSupply p := hs _ (h.lpSupply p)

theorem transferred (h : Alike donor l l') {c : TransferChecked} {signer : Pubkey} {n : ℕ}
    (t : Transferred l c signer n l₁) (t' : Transferred l' c signer n l₁') :
    Alike donor l₁ l₁' := by
  refine h.of_moved t.toMoved t'.toMoved (fun k hk => ?_) fun m hm => ?_
  · have hb := t.balances k
    have hb' := t'.balances k
    rw [hk, ← hb] at hb'
    exact Nat.add_right_cancel hb'
  · rw [t.supplies, t'.supplies, hm]

theorem minted (h : Alike donor l l') {c : MintToChecked} {signer : Pubkey} {n : ℕ}
    (t : Minted l c signer n l₁) (t' : Minted l' c signer n l₁') : Alike donor l₁ l₁' := by
  refine h.of_moved t.toMoved t'.toMoved (fun k hk => ?_) fun m hm => ?_
  · rw [t.balances, t'.balances, hk]
  · rw [t.supplies, t'.supplies, hm]

theorem burned (h : Alike donor l l') {c : BurnChecked} {signer : Pubkey} {n : ℕ}
    (t : Burned l c signer n l₁) (t' : Burned l' c signer n l₁') : Alike donor l₁ l₁' := by
  refine h.of_moved t.toMoved t'.toMoved (fun k hk => ?_) fun m hm => ?_
  · have hb := t.balances k
    have hb' := t'.balances k
    rw [hk, ← hb] at hb'
    exact Nat.add_right_cancel hb'
  · have hs := t.supplies m
    have hs' := t'.supplies m
    rw [hm, ← hs] at hs'
    exact Nat.add_right_cancel hs'

/-- The same account is written in both. -/
theorem setToken (h : Alike donor l l') (k : Pubkey) (a : TokenAccount) :
    Alike donor (l.setToken k a) (l'.setToken k a) where
  skeleton := by
    refine congrArg₂ Ledger.mk (congrArg Ledger.mints h.skeleton) (funext fun j => ?_)
    by_cases hj : j = k
    · subst hj
      simp
    · simpa [Ledger.skeleton, hj] using token_map h.skeleton j
  balance j hj := by
    by_cases hjk : j = k
    · subst hjk
      simp [Ledger.balance]
    · have ht : (l.setToken k a).tokens j = l.tokens j := setToken_tokens_of_ne _ _ _ hjk
      have ht' : (l'.setToken k a).tokens j = l'.tokens j := setToken_tokens_of_ne _ _ _ hjk
      have hbal : l'.balance j = l.balance j := h.balance j fun ha => hj <| by
        rcases ha with hv | ⟨m, o, hk, ho⟩
        · exact .inl hv
        · exact .inr ⟨m, o, by rwa [HasAccount, ht], ho⟩
      rwa [Ledger.balance, Ledger.balance, ht, ht']
  lpSupply p := h.lpSupply p

/-- The same mint is written in both. -/
theorem setMint (h : Alike donor l l') (m : Pubkey) (M : Mint) :
    Alike donor (l.setMint m M) (l'.setMint m M) where
  skeleton := by
    refine congrArg₂ Ledger.mk (funext fun j => ?_) (congrArg Ledger.tokens h.skeleton)
    by_cases hj : j = m
    · subst hj
      simp
    · simpa [Ledger.skeleton, hj] using mint_map h.skeleton j
  balance k hk := h.balance k hk
  lpSupply p := by
    by_cases hp : Pubkey.lpMint p = m
    · subst hp
      simp [Ledger.supply]
    · have hs := h.lpSupply p
      rwa [Ledger.supply, Ledger.supply, setMint_mints_of_ne _ _ _ hp, setMint_mints_of_ne _ _ _ hp]

end Alike

/-! ### Amounts in range -/

/-- No account of `m` comes near the end of its range. -/
structure Capped (l : Ledger) (m : Pubkey) : Prop where
  conserved : l.Conserved
  supply_le : l.supply m ≤ maxSupplyCap

namespace Capped

variable {m : Pubkey}

theorem balance_le (h : l.Capped m) {k o : Pubkey} (hk : l.HasAccount k m o) :
    l.balance k ≤ maxSupplyCap :=
  (h.conserved.balance_le hk).trans h.supply_le

theorem transferred (h : l.Capped m) {c : TransferChecked} {signer : Pubkey} {n : ℕ}
    (t : Transferred l c signer n l') : l'.Capped m :=
  ⟨t.conserved h.conserved, (t.supplies m).trans_le h.supply_le⟩

theorem burned (h : l.Capped m) {c : BurnChecked} {signer : Pubkey} {n : ℕ}
    (t : Burned l c signer n l') : l'.Capped m :=
  ⟨t.conserved h.conserved, (Nat.le_of_add_right_le (t.supplies m).le).trans h.supply_le⟩

end Capped

/-! ### The same instruction in both -/

theorem transferChecked_agree (h : l'.skeleton = l.skeleton) {c : TransferChecked}
    {signer : Pubkey} {n d : ℕ} (hn : n ≤ l.balance c.source ↔ n ≤ l'.balance c.source)
    (hc : l.Capped c.mint) (hc' : l'.Capped c.mint) :
    Agree (fun l₁ l₁' => Transferred l c signer n l₁ ∧ Transferred l' c signer n l₁')
      (l.transferChecked c signer n d) (l'.transferChecked c signer n d) := by
  have key : Agree (fun _ _ => True) (l.transferChecked c signer n d)
      (l'.transferChecked c signer n d) := by
    refine .okOr (token_map h _) fun src src' hsrc hsrc' hs => ?_
    refine .okOr (token_map h _) fun dst dst' hdst hdst' hd => ?_
    rw [balance_of hsrc, balance_of hsrc'] at hn
    have hfit := (hc.balance_le ⟨dst, hdst, ·, rfl⟩)
    have hfit' := (hc'.balance_le ⟨dst', hdst', ·, rfl⟩)
    have hall := (hc.balance_le ⟨src, hsrc, ·, rfl⟩)
    rw [balance_of hdst] at hfit
    rw [balance_of hdst'] at hfit'
    rw [balance_of hsrc] at hall
    rw [TokenAccount.eq_of_erase hs] at hn ⊢
    rw [TokenAccount.eq_of_erase hd] at hfit' ⊢
    refine .require Iff.rfl fun _ _ => ?_
    refine .require hn fun hle _ => ?_
    refine .require Iff.rfl fun hm _ => ?_
    refine .okOr (mint_map h _) fun M M' _ _ hM => ?_
    rw [Mint.eq_of_erase hM]
    refine .require Iff.rfl fun _ _ => ?_
    refine .require Iff.rfl fun _ _ => ?_
    refine .seq rfl fun _ _ _ => ?_
    split
    · exact .pure trivial
    · -- neither amount leaves the range
      have hcap : maxSupplyCap + maxSupplyCap < 2 ^ 64 := by decide
      have hdm : dst.mint = c.mint := hm.1.symm.trans hm.2
      have h₁ := hfit hdm
      have h₂ := hfit' hdm
      have h₃ := hle.trans (hall hm.2)
      refine .step (okOr_ok_iff.mpr (checkedAdd_eq_some.mpr ⟨by omega, rfl⟩))
        (okOr_ok_iff.mpr (checkedAdd_eq_some.mpr ⟨by omega, rfl⟩)) (.pure trivial)
  exact key.imp fun _ _ ht ht' _ => ⟨token2022.transferred ht, token2022.transferred ht'⟩

theorem mintToChecked_agree (h : l'.skeleton = l.skeleton) {c : MintToChecked} {signer : Pubkey}
    {n d : ℕ} (hb : l'.balance c.destination = l.balance c.destination)
    (hs : l'.supply c.mint = l.supply c.mint) :
    Agree (fun l₁ l₁' => Minted l c signer n l₁ ∧ Minted l' c signer n l₁')
      (l.mintToChecked c signer n d) (l'.mintToChecked c signer n d) := by
  have key : Agree (fun _ _ => True) (l.mintToChecked c signer n d)
      (l'.mintToChecked c signer n d) := by
    refine .okOr (token_map h _) fun dst dst' hdst hdst' hd => ?_
    rw [balance_of hdst, balance_of hdst'] at hb
    rw [TokenAccount.eq_of_erase hd, hb]
    refine .require Iff.rfl fun _ _ => ?_
    refine .require Iff.rfl fun _ _ => ?_
    refine .okOr (mint_map h _) fun M M' hM hM' he => ?_
    rw [supply_of hM, supply_of hM'] at hs
    rw [Mint.eq_of_erase he, hs]
    refine .require Iff.rfl fun _ _ => ?_
    refine .require Iff.rfl fun _ _ => ?_
    refine .seq rfl fun _ _ _ => ?_
    refine .seq rfl fun _ _ _ => ?_
    refine .seq rfl fun _ _ _ => ?_
    exact .seq rfl fun _ _ _ => .pure trivial
  exact key.imp fun _ _ ht ht' _ => ⟨token2022.minted ht, token2022.minted ht'⟩

theorem burnChecked_agree (h : l'.skeleton = l.skeleton) {c : BurnChecked} {signer : Pubkey}
    {n d : ℕ} (hb : l'.balance c.source = l.balance c.source)
    (hs : l'.supply c.mint = l.supply c.mint) :
    Agree (fun l₁ l₁' => Burned l c signer n l₁ ∧ Burned l' c signer n l₁')
      (l.burnChecked c signer n d) (l'.burnChecked c signer n d) := by
  have key : Agree (fun _ _ => True) (l.burnChecked c signer n d)
      (l'.burnChecked c signer n d) := by
    refine .okOr (token_map h _) fun src src' hsrc hsrc' he => ?_
    rw [balance_of hsrc, balance_of hsrc'] at hb
    rw [TokenAccount.eq_of_erase he, hb]
    refine .require Iff.rfl fun _ _ => ?_
    refine .require Iff.rfl fun _ _ => ?_
    refine .okOr (mint_map h _) fun M M' hM hM' hm => ?_
    rw [supply_of hM, supply_of hM'] at hs
    rw [Mint.eq_of_erase hm, hs]
    refine .require Iff.rfl fun _ _ => ?_
    refine .require Iff.rfl fun _ _ => ?_
    refine .require Iff.rfl fun _ _ => ?_
    refine .seq rfl fun _ _ _ => ?_
    exact .seq rfl fun _ _ _ => .pure trivial
  exact key.imp fun _ _ ht ht' _ => ⟨token2022.burned ht, token2022.burned ht'⟩

end

end Ledger

end StablecoinAmm
