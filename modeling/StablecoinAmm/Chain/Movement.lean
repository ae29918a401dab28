import StablecoinAmm.Chain.Ledger
import Mathlib.Tactic.SplitIfs

/-!
# Chain — how tokens move

What the amount-moving instructions of the ledger do, said once for each, in terms of three
functions: the `balance` at an address, the `supply` of a mint and the `skeleton`, which is
everything else.

* `Moved l l'`: the skeleton is the same, only thawed accounts of unpaused mints have another
  balance, and only unpaused mints another supply.  It is reflexive and transitive, so it holds
  across a handler's calls and across runs of them.
* `Transferred`, `Minted`, `Burned`: the exact effect of one instruction, which is a `Moved`.
* `TokenProgram`: that the calls have these effects, which is all that the programs need of the
  token program; `token2022`: that the ledger's instructions do.
-/

namespace StablecoinAmm
open Support

def TokenAccount.erase (a : TokenAccount) : TokenAccount := { a with amount := 0 }

def Mint.erase (m : Mint) : Mint := { m with supply := 0 }

namespace Ledger

/-- Everything but the amounts. -/
def skeleton (l : Ledger) : Ledger where
  mints k := (l.mints k).map Mint.erase
  tokens k := (l.tokens k).map TokenAccount.erase

/-- The amount at `k`; nothing where there is no token account. -/
def balance (l : Ledger) (k : Pubkey) : ℕ := (l.tokens k).elim 0 (·.amount)

/-- The supply of `m`; nothing where there is no mint. -/
def supply (l : Ledger) (m : Pubkey) : ℕ := (l.mints m).elim 0 (·.supply)

/-- The mint exists and is not paused. -/
def Live (l : Ledger) (m : Pubkey) : Prop := ∃ M, l.mints m = some M ∧ ¬ M.isPaused

/-- The account is thawed and its mint not paused. -/
def Movable (l : Ledger) (k : Pubkey) : Prop :=
  ∃ a, l.tokens k = some a ∧ a.state ≠ .frozen ∧ l.Live a.mint

/-- There is a token account of `mint` at `k`, owned by `owner`. -/
def HasAccount (l : Ledger) (k mint owner : Pubkey) : Prop :=
  ∃ a, l.tokens k = some a ∧ a.mint = mint ∧ a.owner = owner

variable {l l' l₁ : Ledger}

theorem balance_of {k : Pubkey} {a : TokenAccount} (h : l.tokens k = some a) :
    l.balance k = a.amount := by
  rw [balance, h]; rfl

theorem supply_of {m : Pubkey} {M : Mint} (h : l.mints m = some M) : l.supply m = M.supply := by
  rw [supply, h]; rfl

theorem token_ok {k : Pubkey} {a : TokenAccount} (h : l.token k = .ok a) : l.tokens k = some a := by
  simpa [token] using h

theorem mint_ok {m : Pubkey} {M : Mint} (h : l.mint m = .ok M) : l.mints m = some M := by
  simpa [mint] using h

/-! ### The skeleton -/

/-- An account survives with its amount changed. -/
theorem token_of_skeleton (h : l'.skeleton = l.skeleton) {k : Pubkey} {a : TokenAccount}
    (ha : l.tokens k = some a) : l'.tokens k = some { a with amount := l'.balance k } := by
  have he : (l'.tokens k).map TokenAccount.erase = (l.tokens k).map TokenAccount.erase :=
    congrFun (congrArg Ledger.tokens h) k
  rw [ha] at he
  obtain ⟨b, hb, hba⟩ := Option.map_eq_some_iff.mp he
  rw [balance_of hb, hb]
  cases a; cases b
  simp only [TokenAccount.erase, TokenAccount.mk.injEq] at hba
  obtain ⟨rfl, rfl, -, rfl, rfl⟩ := hba
  rfl

/-- A mint survives with its supply changed. -/
theorem mint_of_skeleton (h : l'.skeleton = l.skeleton) {m : Pubkey} {M : Mint}
    (hM : l.mints m = some M) : l'.mints m = some { M with supply := l'.supply m } := by
  have he : (l'.mints m).map Mint.erase = (l.mints m).map Mint.erase :=
    congrFun (congrArg Ledger.mints h) m
  rw [hM] at he
  obtain ⟨N, hN, hNM⟩ := Option.map_eq_some_iff.mp he
  rw [supply_of hN, hN]
  cases M; cases N
  simp only [Mint.erase, Mint.mk.injEq] at hNM
  obtain ⟨rfl, -, rfl, rfl, rfl, rfl, rfl, rfl⟩ := hNM
  rfl

theorem Live.of_skeleton (h : l'.skeleton = l.skeleton) {m : Pubkey} (hm : l.Live m) :
    l'.Live m := by
  obtain ⟨M, hM, hp⟩ := hm
  exact ⟨_, mint_of_skeleton h hM, hp⟩

theorem Movable.of_skeleton (h : l'.skeleton = l.skeleton) {k : Pubkey} (hk : l.Movable k) :
    l'.Movable k := by
  obtain ⟨a, ha, hs, hm⟩ := hk
  exact ⟨_, token_of_skeleton h ha, hs, hm.of_skeleton h⟩

theorem HasAccount.of_skeleton (h : l'.skeleton = l.skeleton) {k m o : Pubkey}
    (hk : l.HasAccount k m o) : l'.HasAccount k m o := by
  obtain ⟨a, ha, hm, ho⟩ := hk
  exact ⟨_, token_of_skeleton h ha, hm, ho⟩

/-- Accounts of different owners are different accounts. -/
theorem HasAccount.ne_of_owner {k k' m m' o o' : Pubkey} (h : l.HasAccount k m o)
    (h' : l.HasAccount k' m' o') (ho : o ≠ o') : k ≠ k' := by
  rintro rfl
  obtain ⟨a, ha, -, rfl⟩ := h
  obtain ⟨b, hb, -, rfl⟩ := h'
  obtain rfl := Option.some.inj (ha.symm.trans hb)
  exact ho rfl

/-- And so are accounts of different mints. -/
theorem HasAccount.ne_of_mint {k k' m m' o o' : Pubkey} (h : l.HasAccount k m o)
    (h' : l.HasAccount k' m' o') (hm : m ≠ m') : k ≠ k' := by
  rintro rfl
  obtain ⟨a, ha, rfl, -⟩ := h
  obtain ⟨b, hb, rfl, -⟩ := h'
  obtain rfl := Option.some.inj (ha.symm.trans hb)
  exact hm rfl

/-! ### Movement -/

/-- From `l` to `l'` nothing but amounts changed, and those only where the mint is live and the
account thawed. -/
structure Moved (l l' : Ledger) : Prop where
  skeleton : l'.skeleton = l.skeleton
  balance : ∀ k, l'.balance k ≠ l.balance k → l.Movable k
  supply : ∀ m, l'.supply m ≠ l.supply m → l.Live m

theorem Moved.refl (l : Ledger) : Moved l l :=
  ⟨rfl, fun _ h => absurd rfl h, fun _ h => absurd rfl h⟩

theorem Moved.trans (h₁ : Moved l l₁) (h₂ : Moved l₁ l') : Moved l l' where
  skeleton := h₂.skeleton.trans h₁.skeleton
  balance k hk := by
    by_cases h : l₁.balance k = l.balance k
    · exact (h₂.balance k (by rwa [h])).of_skeleton h₁.skeleton.symm
    · exact h₁.balance k h
  supply m hm := by
    by_cases h : l₁.supply m = l.supply m
    · exact (h₂.supply m (by rwa [h])).of_skeleton h₁.skeleton.symm
    · exact h₁.supply m h

/-! ### The primitive updates -/

@[simp] theorem skeleton_modify (l : Ledger) (k : Pubkey) (f : ℕ → ℕ) :
    (l.modifyToken k fun a => { a with amount := f a.amount }).skeleton = l.skeleton := by
  simp only [skeleton, modifyToken, Ledger.mk.injEq, true_and]
  funext j
  by_cases hj : j = k
  · subst hj
    rw [Function.update_self, Option.map_map]; rfl
  · rw [Function.update_of_ne hj]

@[simp] theorem skeleton_credit (l : Ledger) (k : Pubkey) (n : ℕ) :
    (l.credit k n).skeleton = l.skeleton := skeleton_modify l k (· + n)

@[simp] theorem skeleton_debit (l : Ledger) (k : Pubkey) (n : ℕ) :
    (l.debit k n).skeleton = l.skeleton := skeleton_modify l k (· - n)

@[simp] theorem skeleton_setSupply (l : Ledger) (m : Pubkey) (n : ℕ) :
    (l.setSupply m n).skeleton = l.skeleton := by
  simp only [skeleton, setSupply, Ledger.mk.injEq, and_true]
  funext j
  by_cases hj : j = m
  · subst hj
    rw [Function.update_self, Option.map_map]; rfl
  · rw [Function.update_of_ne hj]

theorem balance_credit {k : Pubkey} {a : TokenAccount} (h : l.tokens k = some a) (n : ℕ)
    (j : Pubkey) : (l.credit k n).balance j = l.balance j + if j = k then n else 0 := by
  by_cases hj : j = k
  · subst hj
    simp [balance, credit, modifyToken, h]
  · simp [balance, credit, modifyToken, hj]

@[simp] theorem balance_debit (l : Ledger) (k : Pubkey) (n : ℕ) (j : Pubkey) :
    (l.debit k n).balance j = l.balance j - if j = k then n else 0 := by
  by_cases hj : j = k
  · subst hj
    cases h : l.tokens j <;> simp [balance, debit, modifyToken, h]
  · simp [balance, debit, modifyToken, hj]

@[simp] theorem supply_credit (l : Ledger) (k : Pubkey) (n : ℕ) (m : Pubkey) :
    (l.credit k n).supply m = l.supply m := rfl

@[simp] theorem supply_debit (l : Ledger) (k : Pubkey) (n : ℕ) (m : Pubkey) :
    (l.debit k n).supply m = l.supply m := rfl

@[simp] theorem balance_setSupply (l : Ledger) (m : Pubkey) (n : ℕ) (k : Pubkey) :
    (l.setSupply m n).balance k = l.balance k := rfl

theorem supply_setSupply {m : Pubkey} {M : Mint} (h : l.mints m = some M) (n : ℕ) (j : Pubkey) :
    (l.setSupply m n).supply j = if j = m then n else l.supply j := by
  by_cases hj : j = m
  · subst hj
    simp [supply, setSupply, h]
  · simp [supply, setSupply, hj]

/-! ### The instructions -/

/-- A transfer of `n`. -/
structure Transferred (l : Ledger) (c : TransferChecked) (signer : Pubkey) (n : ℕ) (l' : Ledger) :
    Prop extends Moved l l' where
  live : l.Live c.mint
  source : ∃ a, l.tokens c.source = some a ∧ a.mint = c.mint ∧ a.state ≠ .frozen ∧
    a.owner = c.authority
  destination : ∃ a, l.tokens c.destination = some a ∧ a.mint = c.mint ∧ a.state ≠ .frozen
  signed : c.authority = signer
  covered : n ≤ l.balance c.source
  balances : ∀ k, l'.balance k + (if k = c.source then n else 0) =
    l.balance k + if k = c.destination then n else 0
  supplies : ∀ m, l'.supply m = l.supply m

/-- Issuing `n`. -/
structure Minted (l : Ledger) (c : MintToChecked) (signer : Pubkey) (n : ℕ) (l' : Ledger) :
    Prop extends Moved l l' where
  live : l.Live c.mint
  destination : ∃ a, l.tokens c.destination = some a ∧ a.mint = c.mint ∧ a.state ≠ .frozen
  authority : ∃ M, l.mints c.mint = some M ∧ M.mintAuthority = some signer
  balances : ∀ k, l'.balance k = l.balance k + if k = c.destination then n else 0
  supplies : ∀ m, l'.supply m = l.supply m + if m = c.mint then n else 0

/-- Destroying `n`. -/
structure Burned (l : Ledger) (c : BurnChecked) (signer : Pubkey) (n : ℕ) (l' : Ledger) :
    Prop extends Moved l l' where
  live : l.Live c.mint
  source : ∃ a, l.tokens c.source = some a ∧ a.mint = c.mint ∧ a.state ≠ .frozen ∧
    a.owner = c.authority
  signed : c.authority = signer
  balances : ∀ k, l'.balance k + (if k = c.source then n else 0) = l.balance k
  supplies : ∀ m, l'.supply m + (if m = c.mint then n else 0) = l.supply m

namespace Transferred

variable {c : TransferChecked} {signer : Pubkey} {n : ℕ}

theorem at_source (t : Transferred l c signer n l') (h : c.source ≠ c.destination) :
    l'.balance c.source + n = l.balance c.source := by
  have := t.balances c.source
  rwa [if_pos rfl, if_neg h, Nat.add_zero] at this

theorem at_destination (t : Transferred l c signer n l') (h : c.destination ≠ c.source) :
    l'.balance c.destination = l.balance c.destination + n := by
  have := t.balances c.destination
  rwa [if_neg h, if_pos rfl, Nat.add_zero] at this

theorem elsewhere (t : Transferred l c signer n l') {k : Pubkey} (hs : k ≠ c.source)
    (hd : k ≠ c.destination) : l'.balance k = l.balance k := by
  have := t.balances k
  rwa [if_neg hs, if_neg hd] at this

end Transferred

theorem Minted.elsewhere {c : MintToChecked} {signer : Pubkey} {n : ℕ}
    (t : Minted l c signer n l') {k : Pubkey} (h : k ≠ c.destination) :
    l'.balance k = l.balance k := by
  rw [t.balances, if_neg h, Nat.add_zero]

theorem Burned.elsewhere {c : BurnChecked} {signer : Pubkey} {n : ℕ}
    (t : Burned l c signer n l') {k : Pubkey} (h : k ≠ c.source) :
    l'.balance k = l.balance k := by
  have := t.balances k
  rwa [if_neg h] at this

theorem validateOwner_ok {expected authority signer : Pubkey} {u : Unit}
    (h : validateOwner expected authority signer = .ok u) :
    expected = authority ∧ authority = signer := by
  simp only [validateOwner, bind_ok_iff, require_ok_iff] at h
  obtain ⟨-, he, hs⟩ := h
  exact ⟨he.symm, hs⟩

theorem transferChecked_ok {c : TransferChecked} {signer : Pubkey} {n d : ℕ}
    (h : l.transferChecked c signer n d = .ok l') : Transferred l c signer n l' := by
  simp only [transferChecked, bind_ok_iff, require_ok_iff] at h
  obtain ⟨src, hsrc, dst, hdst, -, ⟨hsf, hdf⟩, -, hn, -, ⟨hsd, hsm⟩, M, hM, -, -, -, hp, u, ho,
    h⟩ := h
  obtain ⟨ho, hsig⟩ := validateOwner_ok ho
  replace hsrc := token_ok hsrc
  replace hdst := token_ok hdst
  have hlive : l.Live c.mint := ⟨M, mint_ok hM, hp⟩
  have hcov : n ≤ l.balance c.source := by rw [balance_of hsrc]; exact hn
  -- a transfer to the source itself is the same debit and credit
  have hbal : l'.skeleton = l.skeleton ∧ (∀ m, l'.supply m = l.supply m) ∧
      ∀ k, l'.balance k + (if k = c.source then n else 0) =
        l.balance k + if k = c.destination then n else 0 := by
    split at h
    · rename_i heq
      obtain rfl := pure_ok_iff.mp h
      exact ⟨rfl, fun _ => rfl, fun k => by rw [heq]⟩
    · rename_i hne
      simp only [bind_ok_iff] at h
      obtain ⟨-, -, h⟩ := h
      obtain rfl := pure_ok_iff.mp h
      have hdst' : (l.debit c.source n).tokens c.destination = some dst := by
        simp [debit, modifyToken, Function.update_of_ne (Ne.symm hne), hdst]
      refine ⟨by simp, fun _ => rfl, fun k => ?_⟩
      rw [balance_credit hdst', balance_debit]
      by_cases hk : k = c.source
      · subst hk; rw [if_pos rfl]; omega
      · simp [hk]
  obtain ⟨hskel, hsup, hbal⟩ := hbal
  exact
    { skeleton := hskel
      balance := fun k hk => by
        by_cases hks : k = c.source
        · exact ⟨src, hks ▸ hsrc, hsf, hsm ▸ hlive⟩
        · by_cases hkd : k = c.destination
          · exact ⟨dst, hkd ▸ hdst, hdf, hsd ▸ hsm ▸ hlive⟩
          · exact absurd (by simpa [hks, hkd] using hbal k) hk
      supply := fun m hm => absurd (hsup m) hm
      live := hlive
      source := ⟨src, hsrc, hsm, hsf, ho⟩
      destination := ⟨dst, hdst, hsd ▸ hsm, hdf⟩
      signed := hsig
      covered := hcov
      balances := hbal
      supplies := hsup }

theorem mintToChecked_ok {c : MintToChecked} {signer : Pubkey} {n d : ℕ}
    (h : l.mintToChecked c signer n d = .ok l') : Minted l c signer n l' := by
  simp only [mintToChecked, bind_ok_iff, require_ok_iff, okOr_ok_iff, checkedAdd_eq_some] at h
  obtain ⟨dst, hdst, -, hdf, -, hdm, M, hM, -, hp, -, -, k, hk, u, ho, -, -, s, ⟨-, rfl⟩, h⟩ := h
  obtain rfl := pure_ok_iff.mp h
  obtain ⟨ho, hsig⟩ := validateOwner_ok ho
  replace hdst := token_ok hdst
  replace hM := mint_ok hM
  have hlive : l.Live c.mint := ⟨M, hM, hp⟩
  have hbal : ∀ k, ((l.credit c.destination n).setSupply c.mint (M.supply + n)).balance k =
      l.balance k + if k = c.destination then n else 0 := fun k => by
    rw [balance_setSupply, balance_credit hdst]
  have hsup : ∀ m, ((l.credit c.destination n).setSupply c.mint (M.supply + n)).supply m =
      l.supply m + if m = c.mint then n else 0 := fun m => by
    have hM' : (l.credit c.destination n).mints c.mint = some M := hM
    rw [supply_setSupply hM', supply_credit]
    by_cases hm : m = c.mint
    · subst hm; rw [if_pos rfl, if_pos rfl, supply_of hM]
    · simp [hm]
  exact
    { skeleton := by simp
      balance := fun k hk => by
        by_cases hkd : k = c.destination
        · exact ⟨dst, hkd ▸ hdst, hdf, hdm ▸ hlive⟩
        · exact absurd (by simpa [hkd] using hbal k) hk
      supply := fun m hm => by
        by_cases hmm : m = c.mint
        · exact hmm ▸ hlive
        · exact absurd (by simpa [hmm] using hsup m) hm
      live := hlive
      destination := ⟨dst, hdst, hdm, hdf⟩
      authority := ⟨M, hM, by rw [hk, ho, hsig]⟩
      balances := hbal
      supplies := hsup }

theorem burnChecked_ok {c : BurnChecked} {signer : Pubkey} {n d : ℕ}
    (h : l.burnChecked c signer n d = .ok l') : Burned l c signer n l' := by
  simp only [burnChecked, bind_ok_iff, require_ok_iff, okOr_ok_iff, checkedSub_eq_some] at h
  obtain ⟨src, hsrc, -, hsf, -, hsm, M, hM, -, hn, -, -, -, hp, u, ho, s, ⟨hle, rfl⟩, h⟩ := h
  obtain rfl := pure_ok_iff.mp h
  obtain ⟨ho, hsig⟩ := validateOwner_ok ho
  replace hsrc := token_ok hsrc
  replace hM := mint_ok hM
  have hlive : l.Live c.mint := ⟨M, hM, hp⟩
  have hbal : ∀ k, ((l.debit c.source n).setSupply c.mint (M.supply - n)).balance k +
      (if k = c.source then n else 0) = l.balance k := fun k => by
    rw [balance_setSupply, balance_debit]
    by_cases hk : k = c.source
    · subst hk; rw [if_pos rfl, balance_of hsrc]; omega
    · simp [hk]
  have hsup : ∀ m, ((l.debit c.source n).setSupply c.mint (M.supply - n)).supply m +
      (if m = c.mint then n else 0) = l.supply m := fun m => by
    have hM' : (l.debit c.source n).mints c.mint = some M := hM
    rw [supply_setSupply hM', supply_debit]
    by_cases hm : m = c.mint
    · subst hm; rw [if_pos rfl, if_pos rfl, supply_of hM]; omega
    · simp [hm]
  exact
    { skeleton := by simp
      balance := fun k hk => by
        by_cases hks : k = c.source
        · exact ⟨src, hks ▸ hsrc, hsf, hsm ▸ hlive⟩
        · exact absurd (by simp [hks]) hk
      supply := fun m hm => by
        by_cases hmm : m = c.mint
        · exact hmm ▸ hlive
        · exact absurd (by simpa [hmm] using hsup m) hm
      live := hlive
      source := ⟨src, hsrc, hsm, hsf, ho⟩
      signed := hsig
      balances := hbal
      supplies := hsup }

end Ledger

/-! ### What the programs need of the token program -/

/-- A call that names its accounts: its signer, the amount and the decimals follow. -/
abbrev TokenCall (accounts : Type) :=
  Ledger → accounts → Pubkey → ℕ → ℕ → Except TokenError Ledger

/-- A token program, by what a call has done if it succeeds.  Which calls do is left open. -/
structure TokenProgram where
  transferChecked : TokenCall Ledger.TransferChecked
  mintToChecked : TokenCall Ledger.MintToChecked
  burnChecked : TokenCall Ledger.BurnChecked
  transferred : ∀ {l l' c signer n d},
    transferChecked l c signer n d = .ok l' → Ledger.Transferred l c signer n l'
  minted : ∀ {l l' c signer n d},
    mintToChecked l c signer n d = .ok l' → Ledger.Minted l c signer n l'
  burned : ∀ {l l' c signer n d},
    burnChecked l c signer n d = .ok l' → Ledger.Burned l c signer n l'

/-- The ledger's instructions. -/
abbrev token2022 : TokenProgram where
  transferChecked := Ledger.transferChecked
  mintToChecked := Ledger.mintToChecked
  burnChecked := Ledger.burnChecked
  transferred := Ledger.transferChecked_ok
  minted := Ledger.mintToChecked_ok
  burned := Ledger.burnChecked_ok

end StablecoinAmm
