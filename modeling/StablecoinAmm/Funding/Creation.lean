import Mathlib.Algebra.BigOperators.Group.List.Basic
import StablecoinAmm.System.Funding

/-!
# Funding — creating one account, and several

What the code that creates an account at a derived address does, whatever was sent there before:
at a free address it brings the balance up to the rent, and fails exactly when the payer cannot
spend what is missing.  That is all that the handlers need of it (`Creator`), and both ways to
create an account do so (`Creator.derived`, `Creator.anchorInit`).  `Bank.Paid` is what creating
a list of accounts has done, one after the other, for one payer.
-/

namespace StablecoinAmm
open Support

/-- An account to create. -/
structure Creation where
  target : Pubkey
  rentExempt : ℕ
  space : ℕ
  owner : ProgramId

namespace Bank

variable {b b₁ b' : Bank} {payer target : Pubkey} {c : Creation} {cs : List Creation}

/-- What is missing at the address. -/
def deficit (b : Bank) (c : Creation) : ℕ := c.rentExempt - (b.info c.target).lamports

/-- What the payer is charged for all of them. -/
def cost (b : Bank) (cs : List Creation) : ℕ := (cs.map b.deficit).sum

/-- The account, once created. -/
def created (b : Bank) (c : Creation) : AccountInfo :=
  ⟨max c.rentExempt (b.info c.target).lamports, c.space, c.owner⟩

/-! ### One account -/

/-- The account at a free address was created, at the payer's expense. -/
structure Provided (b : Bank) (payer : Pubkey) (c : Creation) (b' : Bank) : Prop where
  covered : b.deficit c ≤ (b.info payer).spendable
  payer_info : b'.info payer =
    { b.info payer with lamports := (b.info payer).lamports - b.deficit c }
  target_info : b'.info c.target = b.created c
  elsewhere : ∀ k, k ≠ payer → k ≠ c.target → b'.info k = b.info k

/-- The payer cannot spend what is missing. -/
def Short {ε : Type} (b : Bank) (payer : Pubkey) (n : ℕ) (e : Fault ε) : Prop :=
  (b.info payer).spendable < n ∧ ∃ e', e = .system e'

/-- What the code that creates an account needs of the place and the numbers. -/
structure Creatable (b : Bank) (payer : Pubkey) (c : Creation) : Prop where
  free : (b.info c.target).IsFree
  ne_payer : c.target ≠ payer
  owner : c.owner ≠ .system
  space_le : c.space ≤ maxPermittedDataLength
  rentExempt_pos : 0 < c.rentExempt
  rentExempt_lt : c.rentExempt < 2 ^ 64

theorem spendable_of_free {a : AccountInfo} (h : a.IsFree) : a.spendable = a.lamports := if_pos h

theorem spendable_le (a : AccountInfo) : a.spendable ≤ a.lamports := by
  unfold AccountInfo.spendable
  split <;> omega

/-- A transfer of something fails when it cannot be spent, and for nothing else. -/
theorem transfer_sat (b : Bank) {signers : List Pubkey} {source destination : Pubkey} {n : ℕ}
    (hsigned : source ∈ signers) (hpos : 0 < n) (hne : destination ≠ source)
    (hsum : (b.info destination).lamports + n < 2 ^ 64) :
    Sat (b.transfer signers source destination n)
      (fun b' => n ≤ (b.info source).spendable ∧
        b' = (b.set source
          { b.info source with lamports := (b.info source).lamports - n }).set destination
            { b.info destination with lamports := (b.info destination).lamports + n })
      (fun _ => (b.info source).spendable < n) := by
  have hnot : ¬ (b.info source).IsFree → (b.info source).spendable < n := by
    intro h
    rw [AccountInfo.spendable, if_neg h]; exact hpos
  refine .require_true hsigned ?_
  refine .require (fun h => hnot fun hf => h hf.2) fun hdata => ?_
  refine .require (fun h => (spendable_le _).trans_lt (not_le.mp h)) fun hle => ?_
  refine .require (fun h => hnot fun hf => h (.inl hf.1)) fun howner => ?_
  have hfree : (b.info source).IsFree := ⟨howner.resolve_right hpos.ne', hdata⟩
  have hinfo : ((b.set source { b.info source with
      lamports := (b.info source).lamports - n }).info destination) = b.info destination :=
    set_of_ne _ _ hne
  refine Sat.okOr_some (checkedAdd_eq_some.mpr ⟨by rwa [hinfo], rfl⟩) ?_
  rw [hinfo]
  exact .pure ⟨hle.trans_eq (spendable_of_free hfree).symm, rfl⟩

theorem allocate_of {signers : List Pubkey} {n : ℕ} (hsigned : target ∈ signers)
    (hfree : (b.info target).IsFree) (hle : n ≤ maxPermittedDataLength) :
    b.allocate signers target n = .ok (b.set target { b.info target with dataLen := n }) := by
  rw [allocate, require_of hsigned, ok_bind, require_of hfree, ok_bind, require_of hle]; rfl

theorem allocate_taken (h : ¬ (b.info target).IsFree) (signers : List Pubkey) (n : ℕ) :
    ∃ e, b.allocate signers target n = .error e := by
  unfold allocate
  by_cases hs : target ∈ signers
  · rw [require_of hs, ok_bind, require_not h]; exact ⟨_, rfl⟩
  · rw [require_not hs]; exact ⟨_, rfl⟩

theorem assign_of {signers : List Pubkey} {owner : ProgramId} (hsigned : target ∈ signers)
    (howner : (b.info target).owner = .system) (hne : owner ≠ .system) :
    b.assign signers target owner = .ok (b.set target { b.info target with owner }) := by
  rw [assign, if_neg (howner ▸ hne.symm), require_of hsigned, ok_bind, require_of howner]; rfl

/-- Allocating and assigning a free address. -/
theorem take_of {signers : List Pubkey} {n : ℕ} {owner : ProgramId}
    {f : Bank → Except SystemError Bank} (hsigned : target ∈ signers)
    (hfree : (b.info target).IsFree) (hle : n ≤ maxPermittedDataLength) (hne : owner ≠ .system) :
    (b.allocate signers target n >>= fun b => b.assign signers target owner >>= f) =
      f (b.set target ⟨(b.info target).lamports, n, owner⟩) := by
  rw [allocate_of hsigned hfree hle, ok_bind, assign_of hsigned (by rw [set_self]; exact hfree.1) hne,
    ok_bind, set_self, set_set]

/-- The payer pays what is missing, and the address is taken. -/
theorem provided_of (hle : b.deficit c ≤ (b.info payer).spendable)
    (hp : b'.info payer =
      { b.info payer with lamports := (b.info payer).lamports - b.deficit c })
    (ht : b'.info c.target = ⟨(b.info c.target).lamports + b.deficit c, c.space, c.owner⟩)
    (he : ∀ k, k ≠ payer → k ≠ c.target → b'.info k = b.info k) : b.Provided payer c b' where
  covered := hle
  payer_info := hp
  target_info := by
    have hmax : (b.info c.target).lamports + b.deficit c =
        max c.rentExempt (b.info c.target).lamports := by
      unfold deficit; omega
    rw [ht, created, hmax]
  elsewhere := he

theorem createAccount_sat (hc : b.Creatable payer c) (hzero : (b.info c.target).lamports = 0) :
    Sat (b.createAccount [payer, c.target] payer c.target c.rentExempt c.space c.owner)
      (b.Provided payer c) (fun _ => (b.info payer).spendable < b.deficit c) := by
  have hdef : b.deficit c = c.rentExempt := by rw [deficit, hzero, Nat.sub_zero]
  have hmem : c.target ∈ [payer, c.target] := by simp
  rw [createAccount, require_of hzero, ok_bind, take_of hmem hc.free hc.space_le hc.owner]
  set b₁ := b.set c.target ⟨(b.info c.target).lamports, c.space, c.owner⟩ with hb₁
  have hpayer : b₁.info payer = b.info payer := set_of_ne _ _ hc.ne_payer.symm
  have htarget : b₁.info c.target = ⟨0, c.space, c.owner⟩ := by rw [hb₁, set_self, hzero]
  have hsat := transfer_sat b₁ (List.mem_cons_self : payer ∈ [payer, c.target]) hc.rentExempt_pos
    hc.ne_payer (by rw [htarget, zero_add]; exact hc.rentExempt_lt)
  rw [hpayer, htarget] at hsat
  rw [hdef]
  refine .intro (fun b' hb' => ?_) fun e he => hsat.error he
  obtain ⟨hle, rfl⟩ := hsat.ok hb'
  apply provided_of (hdef ▸ hle)
  · rw [set_of_ne _ _ hc.ne_payer.symm, set_self, hdef]
  · rw [set_self, hzero, hdef]
  · intro k hkp hkt
    rw [set_of_ne _ _ hkt, set_of_ne _ _ hkp, hb₁, set_of_ne _ _ hkt]

/-- What was missing is there, and the address is still free. -/
theorem payDeficit_sat (hc : b.Creatable payer c) :
    Sat (b.payDeficit payer c.target c.rentExempt)
      (fun b₁ => b.deficit c ≤ (b.info payer).spendable ∧
        b₁.info payer = { b.info payer with lamports := (b.info payer).lamports - b.deficit c } ∧
        b₁.info c.target =
          { b.info c.target with lamports := (b.info c.target).lamports + b.deficit c } ∧
        ∀ k, k ≠ payer → k ≠ c.target → b₁.info k = b.info k)
      (fun _ => (b.info payer).spendable < b.deficit c) := by
  change Sat (if b.deficit c > 0 then _ else _) _ _
  split
  · rename_i hpos
    have hsum : (b.info c.target).lamports + b.deficit c < 2 ^ 64 := by
      have := hc.rentExempt_lt
      unfold deficit at hpos ⊢
      omega
    have hsat := transfer_sat b (List.mem_singleton_self payer) hpos hc.ne_payer hsum
    refine .intro (fun b₁ hb₁ => ?_) fun e he => hsat.error he
    obtain ⟨hle, rfl⟩ := hsat.ok hb₁
    refine ⟨hle, ?_, ?_, ?_⟩
    · rw [set_of_ne _ _ hc.ne_payer.symm, set_self]
    · rw [set_self]
    · intro k hkp hkt
      rw [set_of_ne _ _ hkt, set_of_ne _ _ hkp]
  · rename_i hpos
    have hzero : b.deficit c = 0 := by omega
    rw [hzero]
    exact .pure ⟨Nat.zero_le _, rfl, rfl, fun _ _ _ => rfl⟩

theorem topUp_sat (hc : b.Creatable payer c) :
    Sat (b.topUp payer c.target c.owner c.rentExempt c.space) (b.Provided payer c)
      (fun _ => (b.info payer).spendable < b.deficit c) := by
  refine (payDeficit_sat hc).bind ?_
  rintro b₁ ⟨hle, hp, ht, he⟩
  have hfree : (b₁.info c.target).IsFree := by rw [ht]; exact hc.free
  have htake := take_of (f := pure) (List.mem_singleton_self c.target) hfree hc.space_le hc.owner
  simp only [bind_pure] at htake
  rw [htake]
  apply Sat.pure
  apply provided_of hle
  · rw [set_of_ne _ _ hc.ne_payer.symm, hp]
  · rw [set_self, ht]
  · intro k hkp hkt
    rw [set_of_ne _ _ hkt, he k hkp hkt]

/-- **Prefunded or not**, a free address is created if the payer can pay what is missing. -/
theorem createDerived_sat {ε : Type} {inUse : ε} (hc : b.Creatable payer c) :
    Sat (b.createDerived payer c.target c.owner c.rentExempt c.space inUse) (b.Provided payer c)
      (b.Short payer (b.deficit c)) := by
  unfold createDerived
  split
  · rename_i hzero
    have hsat := createAccount_sat hc hzero
    exact .mapError (fun _ h => hsat.ok h) fun e h => ⟨hsat.error h, e, rfl⟩
  · refine .require_true hc.free ?_
    have hsat := topUp_sat hc
    exact .mapError (fun _ h => hsat.ok h) fun e h => ⟨hsat.error h, e, rfl⟩

theorem initAccount_sat (ε : Type) (hc : b.Creatable payer c) :
    Sat (b.initAccount payer c.target c.owner c.rentExempt c.space : Except (Fault ε) Bank)
      (b.Provided payer c) (b.Short payer (b.deficit c)) := by
  have hone : max c.rentExempt 1 = c.rentExempt := max_eq_left hc.rentExempt_pos
  unfold initAccount
  rw [hone]
  split
  · rename_i hzero
    have hsat := createAccount_sat hc hzero
    exact .mapError (fun _ h => hsat.ok h) fun e h => ⟨hsat.error h, e, rfl⟩
  · have hsat := topUp_sat hc
    exact .mapError (fun _ h => hsat.ok h) fun e h => ⟨hsat.error h, e, rfl⟩

/-- Code that creates an account, by what it does at a free address. -/
structure Creator (ε : Type) where
  create : Bank → Pubkey → Creation → Except (Fault ε) Bank
  creates : ∀ {b payer c}, b.Creatable payer c →
    Sat (create b payer c) (b.Provided payer c) (b.Short payer (b.deficit c))

/-- The code of both programs for the mints and token accounts. -/
abbrev Creator.derived {ε : Type} (inUse : ε) : Creator ε where
  create b payer c := b.createDerived payer c.target c.owner c.rentExempt c.space inUse
  creates := createDerived_sat

/-- Anchor's for the accounts of the programs themselves. -/
abbrev Creator.anchorInit (ε : Type) : Creator ε where
  create b payer c := b.initAccount payer c.target c.owner c.rentExempt c.space
  creates := initAccount_sat ε

/-- At an address that a program has taken, it is the system program that fails. -/
theorem initAccount_taken {ε : Type} (h : ¬ (b.info target).IsFree) (hne : target ≠ payer)
    (owner : ProgramId) (rentExempt space : ℕ) :
    ∃ e, (b.initAccount payer target owner rentExempt space : Except (Fault ε) Bank) =
      .error (.system e) := by
  unfold initAccount
  split
  · rename_i hzero
    obtain ⟨e, he⟩ := allocate_taken h [payer, target] space
    refine ⟨e, ?_⟩
    rw [createAccount, require_of hzero, ok_bind, he]; rfl
  · cases hpay : b.payDeficit payer target (max rentExempt 1) with
    | error e => exact ⟨e, by rw [topUp, hpay]; rfl⟩
    | ok b₁ =>
        have hkept : (b₁.info target).owner = (b.info target).owner ∧
            (b₁.info target).dataLen = (b.info target).dataLen := by
          simp only [payDeficit] at hpay
          split at hpay
          · simp only [transfer, bind_ok_iff, okOr_ok_iff, pure_ok_iff] at hpay
            obtain ⟨-, -, -, -, -, -, -, -, n, -, rfl⟩ := hpay
            rw [set_self, set_of_ne _ _ hne]
            exact ⟨rfl, rfl⟩
          · obtain rfl := pure_ok_iff.mp hpay
            exact ⟨rfl, rfl⟩
        have htaken : ¬ (b₁.info target).IsFree := by
          rw [AccountInfo.IsFree, hkept.1, hkept.2]; exact h
        obtain ⟨e, he⟩ := allocate_taken htaken [target] space
        exact ⟨e, by rw [topUp, hpay, ok_bind, he]; rfl⟩

/-! ### Several accounts -/

/-- The accounts `cs`, free before, were created one after the other at the payer's expense. -/
structure Paid (b : Bank) (payer : Pubkey) (cs : List Creation) (b' : Bank) : Prop where
  ne_payer : ∀ c ∈ cs, c.target ≠ payer
  covered : b.cost cs ≤ (b.info payer).spendable
  payer_info : b'.info payer =
    { b.info payer with lamports := (b.info payer).lamports - b.cost cs }
  target_info : ∀ c ∈ cs, b'.info c.target = b.created c
  elsewhere : ∀ k, k ≠ payer → (∀ c ∈ cs, k ≠ c.target) → b'.info k = b.info k

theorem cost_snoc (b : Bank) (cs : List Creation) (c : Creation) :
    b.cost (cs ++ [c]) = b.cost cs + b.deficit c := by
  simp [cost]

theorem cost_append_le (b : Bank) (cs ds : List Creation) : b.cost cs ≤ b.cost (cs ++ ds) := by
  simp [cost]

/-- What the payer can still spend. -/
theorem spendable_sub (a : AccountInfo) (n : ℕ) :
    ({ a with lamports := a.lamports - n } : AccountInfo).spendable = a.spendable - n := by
  by_cases hf : a.IsFree
  · have hf' : ({ a with lamports := a.lamports - n } : AccountInfo).IsFree := hf
    rw [spendable_of_free hf, spendable_of_free hf']
  · have hf' : ¬ ({ a with lamports := a.lamports - n } : AccountInfo).IsFree := hf
    rw [AccountInfo.spendable, if_neg hf'] at *
    rw [AccountInfo.spendable, if_neg hf, Nat.zero_sub]

namespace Paid

theorem nil (b : Bank) (payer : Pubkey) : b.Paid payer [] b where
  ne_payer := nofun
  covered := Nat.zero_le _
  payer_info := rfl
  target_info := nofun
  elsewhere _ _ _ := rfl

theorem kept (h : b.Paid payer cs b₁) (hc : b.Creatable payer c)
    (hnew : ∀ d ∈ cs, c.target ≠ d.target) : b₁.info c.target = b.info c.target :=
  h.elsewhere _ hc.ne_payer hnew

theorem snoc (h : b.Paid payer cs b₁) (hc : b.Creatable payer c)
    (hnew : ∀ d ∈ cs, c.target ≠ d.target) (hp : b₁.Provided payer c b') :
    b.Paid payer (cs ++ [c]) b' := by
  have hkept := h.kept hc hnew
  have hdef : b₁.deficit c = b.deficit c := by rw [deficit, hkept]; rfl
  have hcov := hp.covered
  rw [h.payer_info, spendable_sub _ _, hdef] at hcov
  have hle := h.covered
  constructor
  · intro d hd
    rcases List.mem_append.mp hd with hd | hd
    · exact h.ne_payer d hd
    · obtain rfl := List.mem_singleton.mp hd
      exact hc.ne_payer
  · rw [cost_snoc]; omega
  · rw [hp.payer_info, h.payer_info, hdef, cost_snoc, Nat.sub_sub]
  · intro d hd
    rcases List.mem_append.mp hd with hd | hd
    · rw [hp.elsewhere _ (h.ne_payer d hd) (hnew d hd).symm, h.target_info d hd]
    · obtain rfl := List.mem_singleton.mp hd
      rw [hp.target_info, created, hkept]; rfl
  · intro k hk hks
    rw [hp.elsewhere k hk (hks c (by simp)), h.elsewhere k hk fun d hd => hks d (by simp [hd])]

/-- **The next account**, whatever code creates it. -/
theorem step {ε : Type} (k : Creator ε) {n : ℕ} (h : b.Paid payer cs b₁)
    (hc : b.Creatable payer c) (hnew : ∀ d ∈ cs, c.target ≠ d.target)
    (hle : b.cost (cs ++ [c]) ≤ n) :
    Sat (k.create b₁ payer c) (b.Paid payer (cs ++ [c])) (b.Short payer n) := by
  have hkept := h.kept hc hnew
  have hsat := k.creates (b := b₁) { hc with free := hkept.symm ▸ hc.free }
  refine .intro (fun b' hb' => h.snoc hc hnew (hsat.ok hb')) fun e he => ?_
  obtain ⟨hshort, hsys⟩ := hsat.error he
  have hdef : b₁.deficit c = b.deficit c := by rw [deficit, hkept]; rfl
  have hcov := h.covered
  rw [h.payer_info, spendable_sub _ _, hdef] at hshort
  rw [cost_snoc] at hle
  exact ⟨by omega, hsys⟩

end Paid

end Bank

end StablecoinAmm
