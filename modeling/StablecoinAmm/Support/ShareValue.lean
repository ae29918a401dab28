import Mathlib.Algebra.Order.Ring.Defs
import Mathlib.Tactic.Linarith
import Mathlib.Tactic.Ring
import Mathlib.Tactic.Positivity

/-!
# Support — what a share of a two-sided pool is worth

Stocks `x` and `y` stand against `n` issued shares.  The worth of a share is the geometric mean
of the stocks per share, `√(x · y) / n`, and a move to `x'`, `y'` and `n'` lowers no worth if
`x · y · n'² ≤ x' · y' · n²`, without roots or division.

* `worth_of_ratios`: a move that lowers neither `x / n` nor `y / n` is such a move — deposits,
  withdrawals and burnt shares.
* `worth_of_product`: so is one that keeps the shares and does not lower `x · y` — trades.
* `sq_le_of_worth`: a product that covers the squared shares covers them after such a move.
* `not_drained`: if worth has not fallen and no share is missing, then not both stocks can have
  shrunk, one of them strictly.
* `mul_le_of_floor`, `mul_le_of_floor_sub`: a pro-rata amount rounded down, credited or paid
  out, keeps `x / n`; `ratio_trans` composes such moves, and `le_floor_of_mul` and
  `le_floor_of_rest` say what their sum comes to.
* `refund_le`, `refund_lt`: shares bought and cashed in at once return what they cost, less what
  rounding took.

Positivity of the shares is what makes the relation transitive, so a `SharePool` carries it, and
is preordered by its worth.
-/

namespace Support

/-- Two stocks and the shares issued against them. -/
structure SharePool (K : Type*) [Zero K] [LT K] where
  x : K
  y : K
  shares : K
  x_pos : 0 < x
  y_pos : 0 < y
  shares_pos : 0 < shares

namespace SharePool

/-! ### Moves that lower no worth -/

section Worth
variable {K : Type*} [CommSemiring K] [LinearOrder K] [IsStrictOrderedRing K]
  {x y n x' y' n' : K}

/-- Neither stock falls relative to the shares. -/
theorem worth_of_ratios (hx : x * n' ≤ x' * n) (hy : y * n' ≤ y' * n) (hyn : 0 ≤ y * n')
    (hxn : 0 ≤ x' * n) : x * y * n' ^ 2 ≤ x' * y' * n ^ 2 :=
  calc x * y * n' ^ 2 = x * n' * (y * n') := by ring
    _ ≤ x' * n * (y' * n) := mul_le_mul hx hy hyn hxn
    _ = x' * y' * n ^ 2 := by ring

/-- The product does not fall and the shares stay. -/
theorem worth_of_product (hk : x * y ≤ x' * y') (hn : n' = n) (h0 : 0 ≤ n) :
    x * y * n' ^ 2 ≤ x' * y' * n ^ 2 := by
  rw [hn]
  exact mul_le_mul_of_nonneg_right hk (pow_nonneg h0 2)

/-- A product that covers the squared shares keeps covering them. -/
theorem sq_le_of_worth (hp : n ^ 2 ≤ x * y) (h : x * y * n' ^ 2 ≤ x' * y' * n ^ 2) (hn : 0 < n)
    (hn' : 0 ≤ n') : n' ^ 2 ≤ x' * y' := by
  refine le_of_mul_le_mul_right ?_ (pow_pos hn 2)
  calc n' ^ 2 * n ^ 2 = n ^ 2 * n' ^ 2 := mul_comm _ _
    _ ≤ x * y * n' ^ 2 := mul_le_mul_of_nonneg_right hp (pow_nonneg hn' 2)
    _ ≤ x' * y' * n ^ 2 := h

/-- A stock per share that does not fall, and does not fall again. -/
theorem ratio_trans {x₁ n₁ : K} (h : x * n₁ ≤ x₁ * n) (h' : x₁ * n' ≤ x' * n₁) (h₁ : 0 < n₁)
    (hn : 0 ≤ n) (hn' : 0 ≤ n') : x * n' ≤ x' * n := by
  refine le_of_mul_le_mul_right ?_ h₁
  calc x * n' * n₁ = x * n₁ * n' := by ring
    _ ≤ x₁ * n * n' := mul_le_mul_of_nonneg_right h hn'
    _ = x₁ * n' * n := by ring
    _ ≤ x' * n₁ * n := mul_le_mul_of_nonneg_right h' hn
    _ = x' * n * n₁ := by ring

end Worth

/-! ### The order of worth -/

section Order
variable {K : Type*} [CommSemiring K] [LinearOrder K] [IsStrictOrderedRing K]

instance : Preorder (SharePool K) where
  le p q := p.x * p.y * q.shares ^ 2 ≤ q.x * q.y * p.shares ^ 2
  le_refl _ := le_rfl
  le_trans p q r hpq hqr := by
    have hq : 0 < q.shares ^ 2 := pow_pos q.shares_pos 2
    refine le_of_mul_le_mul_right ?_ hq
    calc p.x * p.y * r.shares ^ 2 * q.shares ^ 2
        = p.x * p.y * q.shares ^ 2 * r.shares ^ 2 := by ring
      _ ≤ q.x * q.y * p.shares ^ 2 * r.shares ^ 2 :=
          mul_le_mul_of_nonneg_right hpq (pow_pos r.shares_pos 2).le
      _ = q.x * q.y * r.shares ^ 2 * p.shares ^ 2 := by ring
      _ ≤ r.x * r.y * q.shares ^ 2 * p.shares ^ 2 :=
          mul_le_mul_of_nonneg_right hqr (pow_pos p.shares_pos 2).le
      _ = r.x * r.y * p.shares ^ 2 * q.shares ^ 2 := by ring

theorem le_def {p q : SharePool K} :
    p ≤ q ↔ p.x * p.y * q.shares ^ 2 ≤ q.x * q.y * p.shares ^ 2 := Iff.rfl

/-- **A pool is not drained at constant worth.**  With no share missing, the stocks have not both
shrunk, one of them strictly. -/
theorem not_drained {p q : SharePool K} (h : p ≤ q) (hs : p.shares ≤ q.shares)
    (hx : q.x ≤ p.x) (hy : q.y ≤ p.y) : q.x = p.x ∧ q.y = p.y := by
  rw [le_def] at h
  have hk : p.x * p.y ≤ q.x * q.y := by
    refine le_of_mul_le_mul_right ?_ (pow_pos p.shares_pos 2)
    calc p.x * p.y * p.shares ^ 2 ≤ p.x * p.y * q.shares ^ 2 :=
          mul_le_mul_of_nonneg_left (pow_le_pow_left₀ p.shares_pos.le hs 2)
            (mul_pos p.x_pos p.y_pos).le
      _ ≤ q.x * q.y * p.shares ^ 2 := h
  constructor
  · refine hx.antisymm (le_of_not_gt fun hlt => hk.not_gt ?_)
    exact mul_lt_mul hlt hy q.y_pos p.x_pos.le
  · refine hy.antisymm (le_of_not_gt fun hlt => hk.not_gt ?_)
    exact mul_lt_mul' hx hlt q.y_pos.le p.x_pos

end Order

/-! ### Pro-rata amounts, rounded down -/

/-- Shares issued for `d` at the pool's ratio, rounded down, do not dilute the stock. -/
theorem mul_le_of_floor {x d shares issued : ℕ} (h : issued ≤ d * shares / x) :
    x * (shares + issued) ≤ (x + d) * shares := by
  rcases Nat.eq_zero_or_pos x with rfl | hx
  · simp
  · have hi : issued * x ≤ d * shares := (Nat.le_div_iff_mul_le hx).mp h
    calc x * (shares + issued) = x * shares + issued * x := by ring
      _ ≤ x * shares + d * shares := Nat.add_le_add_left hi _
      _ = (x + d) * shares := by ring

/-- A stock that pays out `burned` shares at the pool's ratio, rounded down, does not dilute the
rest. -/
theorem mul_le_of_floor_sub {x x' shares rest paid burned : ℕ} (hx : x' + paid = x)
    (hs : rest + burned = shares) (hp : paid = burned * x / shares) :
    x * rest ≤ x' * shares := by
  have hdiv : paid * shares ≤ burned * x := hp ▸ Nat.div_mul_le_self _ _
  subst hx hs
  refine Nat.le_of_add_le_add_right (b := paid * burned) ?_
  calc (x' + paid) * rest + paid * burned = x' * rest + paid * (rest + burned) := by ring
    _ ≤ x' * rest + burned * (x' + paid) := Nat.add_le_add_left hdiv _
    _ = x' * (rest + burned) + paid * burned := by ring

/-- Shares that did not dilute the stock are no more than were due for `d`. -/
theorem le_floor_of_mul {x d shares issued : ℕ} (hx : 0 < x)
    (h : x * (shares + issued) ≤ (x + d) * shares) : issued ≤ d * shares / x := by
  rw [Nat.le_div_iff_mul_le hx]
  refine Nat.le_of_add_le_add_left (a := x * shares) ?_
  calc x * shares + issued * x = x * (shares + issued) := by ring
    _ ≤ (x + d) * shares := h
    _ = x * shares + d * shares := by ring

/-- A payment that did not dilute the rest of the stock is no more than was due for `burned`. -/
theorem le_floor_of_rest {rest paid restShares burned : ℕ} (hs : 0 < restShares + burned)
    (h : (rest + paid) * restShares ≤ rest * (restShares + burned)) :
    paid ≤ burned * (rest + paid) / (restShares + burned) := by
  rw [Nat.le_div_iff_mul_le hs]
  refine Nat.le_of_add_le_add_left (a := rest * (restShares + burned)) ?_
  calc rest * (restShares + burned) + paid * (restShares + burned)
      = (rest + paid) * restShares + burned * (rest + paid) := by ring
    _ ≤ rest * (restShares + burned) + burned * (rest + paid) := Nat.add_le_add_right h _

/-- Of two amounts, the one that is less of its stock buys no more shares. -/
theorem floor_le_floor {x y d e shares : ℕ} (hx : 0 < x) (hy : 0 < y) (h : d * y ≤ e * x) :
    d * shares / x ≤ e * shares / y := by
  rw [Nat.le_div_iff_mul_le hy]
  refine Nat.le_of_mul_le_mul_right ?_ hx
  calc d * shares / x * y * x = d * shares / x * x * y := by ring
    _ ≤ d * shares * y := Nat.mul_le_mul_right _ (Nat.div_mul_le_self _ _)
    _ = d * y * shares := by ring
    _ ≤ e * x * shares := Nat.mul_le_mul_right _ h
    _ = e * shares * x := by ring

/-- Where `n` shares of stocks `x` and `y` are worth no more than `n'` of `x'` and `y'`, the two
parts of `d` shares, rounded down, keep their product but for rounding. -/
theorem floors_lt {x y n x' y' n' : ℕ} (h : x * y * n' ^ 2 ≤ x' * y' * n ^ 2) (hn : 0 < n)
    (hn' : 0 < n') (d : ℕ) :
    d * x / n * (d * y / n) < (d * x' / n' + 1) * (d * y' / n' + 1) := by
  have hx' : d * x' < (d * x' / n' + 1) * n' := (Nat.lt_mul_div_succ _ hn').trans_eq (Nat.mul_comm ..)
  have hy' : d * y' < (d * y' / n' + 1) * n' := (Nat.lt_mul_div_succ _ hn').trans_eq (Nat.mul_comm ..)
  have hpos : 0 < n ^ 2 * n' ^ 2 := by positivity
  refine Nat.lt_of_mul_lt_mul_right (a := n ^ 2 * n' ^ 2) ?_
  calc d * x / n * (d * y / n) * (n ^ 2 * n' ^ 2)
      = d * x / n * n * (d * y / n * n) * n' ^ 2 := by ring
    _ ≤ d * x * (d * y) * n' ^ 2 :=
        Nat.mul_le_mul_right _ (Nat.mul_le_mul (Nat.div_mul_le_self _ _) (Nat.div_mul_le_self _ _))
    _ = d ^ 2 * (x * y * n' ^ 2) := by ring
    _ ≤ d ^ 2 * (x' * y' * n ^ 2) := Nat.mul_le_mul_left _ h
    _ = d * x' * (d * y') * n ^ 2 := by ring
    _ < (d * x' / n' + 1) * n' * ((d * y' / n' + 1) * n') * n ^ 2 :=
        Nat.mul_lt_mul_of_pos_right (Nat.mul_lt_mul'' hx' hy') (by positivity)
    _ = (d * x' / n' + 1) * (d * y' / n' + 1) * (n ^ 2 * n' ^ 2) := by ring

/-- An amount `e` of the stock `y` that is less than a unit above the ratio of `d` to `x` buys at
most one share and one unit more than the shares for `d`. -/
theorem lt_of_floor {x y d e shares : ℕ} (hx : 0 < x) (hy : 0 < y) (h : e * x < d * y + x) :
    e * shares < d * shares / x * y + y + shares := by
  rcases Nat.eq_zero_or_pos shares with rfl | hs
  · omega
  have hd := (Nat.lt_mul_div_succ (d * shares) hx).le
  generalize d * shares / x = k at *
  refine Nat.lt_of_mul_lt_mul_right (a := x) ?_
  calc e * shares * x = e * x * shares := by ring
    _ < (d * y + x) * shares := Nat.mul_lt_mul_of_pos_right h hs
    _ = d * shares * y + x * shares := by ring
    _ ≤ x * (k + 1) * y + x * shares := Nat.add_le_add_right (Nat.mul_le_mul_right _ hd) _
    _ = (k * y + y + shares) * x := by ring

section Refund
variable {x d shares issued : ℕ}

/-- Shares issued for `d` and cashed in at once do not return more than `d`. -/
theorem refund_le (h : issued * x ≤ d * shares) :
    issued * (x + d) / (shares + issued) ≤ d := by
  refine Nat.div_le_of_le_mul ?_
  calc issued * (x + d) = issued * x + issued * d := Nat.mul_add _ _ _
    _ ≤ d * shares + issued * d := Nat.add_le_add_right h _
    _ = (shares + issued) * d := by ring

/-- Where `d` bought at most one share and one unit too little, no more is lost than that and the
rounding of the refund. -/
theorem refund_lt (h : d * shares < issued * x + x + shares) :
    (d - issued * (x + d) / (shares + issued)) * (shares + issued) <
      x + 2 * (shares + issued) := by
  rcases Nat.eq_zero_or_pos (shares + issued) with h0 | hpos
  · obtain ⟨rfl, rfl⟩ := Nat.add_eq_zero_iff.mp h0
    omega
  have hback := Nat.lt_mul_div_succ (issued * (x + d)) hpos
  generalize issued * (x + d) / (shares + issued) = back at *
  have hb : (shares + issued) * (back + 1) = back * (shares + issued) + (shares + issued) := by
    ring
  have hd : d * (shares + issued) + issued * x = d * shares + issued * (x + d) := by ring
  rw [Nat.sub_mul]
  omega

end Refund

end SharePool

end Support
