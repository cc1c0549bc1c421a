/-
  TrinoGateway.Lib.Rounding — rounding to a binary format, and rounding twice.

  Between two numbers that a format rounds apart there is one that is halfway between
  neighbours of the format (`exists_halfway`). A finer format holds it, so rounding to the
  finer format first does not carry anything past it: rounding twice is rounding once, except
  if the first rounding ends halfway (`nearest_nearest`).
-/

import TrinoGateway.Lib.Binary

namespace TrinoGateway.Lib

/-! ## Between the numbers of a format -/

/-- The number of steps of the grid below `x`. -/
def FloatFormat.steps (F : FloatFormat) (x : ℚ) : ℤ := ⌊x / 2 ^ F.grid x⌋

/-- Halfway between two neighbours of the format. -/
def FloatFormat.Halfway (F : FloatFormat) (x : ℚ) : Prop := x = (F.steps x + 1 / 2) * 2 ^ F.grid x

section

variable (F : FloatFormat) {x y z : ℚ}

theorem lt_grid_prec (x : ℚ) : x < 2 ^ (F.grid x + F.prec) := by
  refine (lt_log x).trans_le (two_zpow_le.mpr ?_)
  have : Int.log 2 x - (F.prec - 1) ≤ F.grid x := le_max_right _ _
  omega

theorem grid_le_of_lt {g : ℤ} (hx : 0 < x) (hg : F.emin ≤ g) (h : x < 2 ^ (g + F.prec)) : F.grid x ≤ g := by
  have hlog : Int.log 2 x < g + F.prec := two_zpow_lt.mp ((log_le hx).trans_lt h)
  exact max_le hg (by omega)

theorem steps_mul_le (x : ℚ) : F.steps x * 2 ^ F.grid x ≤ x := by
  have h := Int.floor_le (x / 2 ^ F.grid x)
  rwa [le_div_iff₀ (two_zpow_pos _)] at h

theorem lt_steps_mul (x : ℚ) : x < (F.steps x + 1) * 2 ^ F.grid x := by
  have h := Int.lt_floor_add_one (x / 2 ^ F.grid x)
  rwa [div_lt_iff₀ (two_zpow_pos _)] at h

theorem steps_lt (x : ℚ) : F.steps x + 1 ≤ 2 ^ F.prec := by
  have h : x / 2 ^ F.grid x < ((2 ^ F.prec : ℤ) : ℚ) := by
    rw [div_lt_iff₀ (two_zpow_pos _)]
    have hlt := lt_grid_prec F x
    rw [two_zpow_add, zpow_natCast, mul_comm] at hlt
    push_cast
    exact hlt
  exact Int.floor_lt.mpr h

/-- A grid above the least one is that of the binade, and the binade begins on the grid. -/
theorem le_steps_of_normal (hx : 0 < x) (h : F.emin ≤ Int.log 2 x - (F.prec - 1)) :
    (2 : ℚ) ^ Int.log 2 x = ((2 ^ (F.prec - 1) : ℤ) : ℚ) * 2 ^ F.grid x ∧ 2 ^ (F.prec - 1) ≤ F.steps x := by
  have hgrid : F.grid x = Int.log 2 x - (F.prec - 1) := max_eq_right h
  have hstart : (2 : ℚ) ^ Int.log 2 x = ((2 ^ (F.prec - 1) : ℤ) : ℚ) * 2 ^ F.grid x := by
    push_cast
    rw [← zpow_natCast (2 : ℚ), ← two_zpow_add, hgrid]
    congr 1
    have := F.prec_pos
    omega
  refine ⟨hstart, Int.le_floor.mpr ?_⟩
  rw [le_div_iff₀ (two_zpow_pos _), ← hstart]
  exact log_le hx

/-- The numbers of a step have the grid of any of them. -/
theorem grid_eq_of_step (hx : 0 < x) (hz : 0 < z) (hlow : F.steps x * 2 ^ F.grid x ≤ z)
    (hhigh : z < (F.steps x + 1) * 2 ^ F.grid x) : F.grid z = F.grid x := by
  apply le_antisymm
  · apply grid_le_of_lt F hz (le_max_left _ _)
    have hsteps : ((F.steps x + 1 : ℤ) : ℚ) ≤ ((2 ^ F.prec : ℤ) : ℚ) := by exact_mod_cast steps_lt F x
    push_cast at hsteps
    rw [two_zpow_add, zpow_natCast, mul_comm]
    exact hhigh.trans_le (mul_le_mul_of_nonneg_right hsteps (two_zpow_pos _).le)
  · rcases le_total F.emin (Int.log 2 x - (F.prec - 1)) with hnormal | htiny
    · obtain ⟨hstart, hsteps⟩ := le_steps_of_normal F hx hnormal
      have hle : (2 : ℚ) ^ Int.log 2 x ≤ z := by
        rw [hstart]
        refine le_trans ?_ hlow
        exact mul_le_mul_of_nonneg_right (by exact_mod_cast hsteps) (two_zpow_pos _).le
      have hlog : Int.log 2 x < Int.log 2 z + 1 := two_zpow_lt.mp (hle.trans_lt (lt_log z))
      rw [show F.grid x = Int.log 2 x - (F.prec - 1) from max_eq_right hnormal]
      exact le_trans (by omega) (le_max_right _ _)
    · rw [show F.grid x = F.emin from max_eq_left htiny]
      exact le_max_left _ _

theorem steps_eq_of_step (hx : 0 < x) (hz : 0 < z) (hlow : F.steps x * 2 ^ F.grid x ≤ z)
    (hhigh : z < (F.steps x + 1) * 2 ^ F.grid x) : F.steps z = F.steps x := by
  have hgrid := grid_eq_of_step F hx hz hlow hhigh
  unfold FloatFormat.steps at hlow hhigh ⊢
  rw [hgrid, Int.floor_eq_iff, le_div_iff₀ (two_zpow_pos _), div_lt_iff₀ (two_zpow_pos _)]
  exact ⟨hlow, hhigh⟩

/-- In the lower half of a step, rounding goes down. -/
theorem nearest_of_low (h : x < (F.steps x + 1 / 2) * 2 ^ F.grid x) : F.nearest x = F.steps x * 2 ^ F.grid x := by
  have hfrac : x / 2 ^ F.grid x - ⌊x / 2 ^ F.grid x⌋ < 1 / 2 := by
    rw [← div_lt_iff₀ (two_zpow_pos _)] at h
    unfold FloatFormat.steps at h
    linarith
  unfold FloatFormat.nearest roundEven
  simp only [hfrac, if_true]
  rfl

/-- In the upper half of a step, rounding goes up. -/
theorem nearest_of_high (h : (F.steps x + 1 / 2) * 2 ^ F.grid x < x) :
    F.nearest x = (F.steps x + 1) * 2 ^ F.grid x := by
  have hfrac : 1 / 2 < x / 2 ^ F.grid x - ⌊x / 2 ^ F.grid x⌋ := by
    rw [← lt_div_iff₀ (two_zpow_pos _)] at h
    unfold FloatFormat.steps at h
    linarith
  unfold FloatFormat.nearest roundEven
  simp only [hfrac, hfrac.not_gt, if_true, if_false]
  unfold FloatFormat.steps
  push_cast
  rfl

theorem steps_le_nearest (x : ℚ) : F.steps x * 2 ^ F.grid x ≤ F.nearest x :=
  mul_le_mul_of_nonneg_right (by exact_mod_cast floor_le_roundEven _) (two_zpow_pos _).le

theorem steps_nonneg (hx : 0 < x) : 0 ≤ F.steps x := Int.floor_nonneg.mpr (div_nonneg hx.le (two_zpow_pos _).le)

/-- The middle of a step is halfway. -/
theorem halfway_middle (hx : 0 < x) : F.Halfway ((F.steps x + 1 / 2) * 2 ^ F.grid x) := by
  have hpos := two_zpow_pos (F.grid x)
  have hsteps : (0 : ℚ) ≤ F.steps x := by exact_mod_cast steps_nonneg F hx
  have hmid : 0 < ((F.steps x : ℚ) + 1 / 2) * 2 ^ F.grid x := mul_pos (by linarith) hpos
  have hlow : (F.steps x : ℚ) * 2 ^ F.grid x ≤ (F.steps x + 1 / 2) * 2 ^ F.grid x :=
    mul_le_mul_of_nonneg_right (by linarith) hpos.le
  have hhigh : ((F.steps x : ℚ) + 1 / 2) * 2 ^ F.grid x < (F.steps x + 1) * 2 ^ F.grid x :=
    mul_lt_mul_of_pos_right (by linarith) hpos
  unfold FloatFormat.Halfway
  rw [steps_eq_of_step F hx hmid hlow hhigh, grid_eq_of_step F hx hmid hlow hhigh]

theorem exists_halfway_of_low (hx : 0 < x) (hlow : x ≤ (F.steps x + 1 / 2) * 2 ^ F.grid x) (hxy : x ≤ y)
    (h : F.nearest x < F.nearest y) : ∃ m, x ≤ m ∧ m ≤ y ∧ F.Halfway m := by
  refine ⟨(F.steps x + 1 / 2) * 2 ^ F.grid x, hlow, ?_, halfway_middle F hx⟩
  by_contra hmy
  -- Otherwise `y` is in the lower half of the same step.
  have hpos := two_zpow_pos (F.grid x)
  have hstep : F.steps x * 2 ^ F.grid x ≤ y := (steps_mul_le F x).trans hxy
  have hhalf : y < (F.steps x + 1 / 2) * 2 ^ F.grid x := not_le.mp hmy
  have hhigh : y < (F.steps x + 1) * 2 ^ F.grid x :=
    hhalf.trans (mul_lt_mul_of_pos_right (by linarith) hpos)
  have hsteps := steps_eq_of_step F hx (hx.trans_le hxy) hstep hhigh
  have hgrid := grid_eq_of_step F hx (hx.trans_le hxy) hstep hhigh
  have hdown := nearest_of_low F (x := y) (by rw [hsteps, hgrid]; exact hhalf)
  rw [hdown, hsteps, hgrid] at h
  exact absurd (steps_le_nearest F x) (not_le.mpr h)

/-- A multiple of its grid is where it is. -/
theorem nearest_of_grid {n : ℤ} {a : ℤ} (h : F.grid (n * 2 ^ a) ≤ a) : F.nearest (n * 2 ^ a) = n * 2 ^ a :=
  roundEven_multiple n h

/-- Rounding keeps what has few enough bits, with no upper limit. -/
theorem nearest_of_bits {n : ℤ} {a : ℤ} (hn : 0 < n) (hbits : n < 2 ^ F.prec) (ha : F.emin ≤ a) :
    F.nearest (n * 2 ^ a) = n * 2 ^ a := by
  apply nearest_of_grid
  have hpos : (0 : ℚ) < n * 2 ^ a := mul_pos (by exact_mod_cast hn) (two_zpow_pos a)
  apply grid_le_of_lt F hpos ha
  rw [two_zpow_add, zpow_natCast, mul_comm]
  exact mul_lt_mul_of_pos_left (by exact_mod_cast hbits) (two_zpow_pos a)

/-- The end of a step is a number of the format. -/
theorem nearest_step_end (hx : 0 < x) :
    F.nearest ((F.steps x + 1) * 2 ^ F.grid x) = (F.steps x + 1) * 2 ^ F.grid x := by
  have hsteps := steps_nonneg F hx
  rcases (steps_lt F x).lt_or_eq with hinner | hlast
  · exact_mod_cast nearest_of_bits F (n := F.steps x + 1) (by omega) hinner (le_max_left _ _)
  · -- The last step ends where the next binade begins.
    have hend : ((F.steps x : ℚ) + 1) * 2 ^ F.grid x = ((1 : ℤ) : ℚ) * 2 ^ (F.grid x + F.prec) := by
      have hcast : (F.steps x : ℚ) + 1 = 2 ^ F.prec := by exact_mod_cast hlast
      rw [hcast, two_zpow_add, zpow_natCast]
      ring
    have hone : (1 : ℤ) < 2 ^ F.prec := by exact_mod_cast Nat.one_lt_two_pow F.prec_pos.ne'
    have hgrid : F.emin ≤ F.grid x := le_max_left _ _
    rw [hend]
    exact nearest_of_bits F one_pos hone (by omega)

theorem steps_of_nearest (h : F.nearest x = x) : x = F.steps x * 2 ^ F.grid x := by
  have hint : x / 2 ^ F.grid x = (roundEven (x / 2 ^ F.grid x) : ℚ) := by
    rw [div_eq_iff (two_zpow_pos _).ne']
    exact h.symm
  have hfloor : F.steps x = roundEven (x / 2 ^ F.grid x) := by
    unfold FloatFormat.steps
    rw [hint, Int.floor_intCast, roundEven_intCast]
  rw [hfloor]
  exact h.symm

theorem grid_of_tiny (hx : 0 < x) (h : x < 2 ^ F.emin) : F.grid x = F.emin := by
  apply le_antisymm
  · apply grid_le_of_lt F hx le_rfl
    exact h.trans_le (two_zpow_le.mpr (by omega))
  · exact le_max_left _ _

/-- The least number that is halfway. -/
theorem halfway_least : F.Halfway (2 ^ (F.emin - 1)) := by
  have hhalf : (2 : ℚ) ^ (F.emin - 1) = 1 / 2 * 2 ^ F.emin := by
    rw [zpow_sub_one₀ (by norm_num)]
    ring
  have hgrid : F.grid (2 ^ (F.emin - 1)) = F.emin :=
    grid_of_tiny F (two_zpow_pos _) (two_zpow_lt.mpr (by omega))
  have hsteps : F.steps (2 ^ (F.emin - 1)) = 0 := by
    unfold FloatFormat.steps
    rw [hgrid, hhalf, mul_div_cancel_right₀ _ (two_zpow_pos _).ne']
    norm_num
  unfold FloatFormat.Halfway
  rw [hsteps, hgrid, hhalf]
  norm_num

@[simp] theorem nearest_zero : F.nearest 0 = 0 := by simp [FloatFormat.nearest, roundEven]

/-- Numbers that a format rounds apart are on different sides of one that is halfway. -/
theorem exists_halfway (hx : 0 ≤ x) (hxy : x ≤ y) (h : F.nearest x < F.nearest y) :
    ∃ m, x ≤ m ∧ m ≤ y ∧ F.Halfway m := by
  rcases hx.eq_or_lt with hzero | hpos
  · refine ⟨2 ^ (F.emin - 1), by rw [← hzero]; exact (two_zpow_pos _).le, ?_, halfway_least F⟩
    by_contra hmy
    -- Below the least halfway number everything rounds to zero.
    have hy : 0 < y := by
      rcases hxy.eq_or_lt with heq | hlt
      · rw [heq] at h
        exact absurd h (lt_irrefl _)
      · rw [← hzero] at hlt
        exact hlt
    have hlt : y < 2 ^ (F.emin - 1) := not_le.mp hmy
    have hgrid := grid_of_tiny F hy (hlt.trans (two_zpow_lt.mpr (by omega)))
    have hsteps : F.steps y = 0 := by
      unfold FloatFormat.steps
      rw [hgrid, Int.floor_eq_zero_iff]
      refine ⟨div_nonneg hy.le (two_zpow_pos _).le, ?_⟩
      rw [div_lt_one (two_zpow_pos _)]
      exact hlt.trans (two_zpow_lt.mpr (by omega))
    have hdown := nearest_of_low F (x := y) (by
      rw [hsteps, hgrid, Int.cast_zero, zero_add]
      rw [zpow_sub_one₀ (by norm_num)] at hlt
      linarith)
    rw [← hzero, nearest_zero, hdown, hsteps] at h
    norm_num at h
  · by_cases hlow : x ≤ (F.steps x + 1 / 2) * 2 ^ F.grid x
    · exact exists_halfway_of_low F hpos hlow hxy h
    · -- In the upper half of its step `x` rounds as the end of the step does.
      have hend := nearest_step_end F hpos
      have hup := nearest_of_high F (not_le.mp hlow)
      have hlt := lt_steps_mul F x
      generalize ((F.steps x : ℚ) + 1) * (2 : ℚ) ^ F.grid x = z at hend hup hlt
      rcases le_or_gt y z with hyz | hzy
      · have hmono := nearest_mono F (hx.trans hxy) hyz
        rw [hend, ← hup] at hmono
        exact absurd h (not_lt.mpr hmono)
      · have hzlow : z ≤ (F.steps z + 1 / 2) * 2 ^ F.grid z := by
          have hmul := steps_of_nearest F hend
          have := two_zpow_pos (F.grid z)
          linarith
        obtain ⟨m, hzm, hmy, hhalf⟩ :=
          exists_halfway_of_low F (hpos.trans hlt) hzlow hzy.le (by rw [hend, ← hup]; exact h)
        exact ⟨m, hlt.le.trans hzm, hmy, hhalf⟩

/-! ## Rounding twice -/

/-- A finer format holds what is halfway. -/
theorem nearest_of_halfway {G : FloatFormat} {m : ℚ} (hprec : G.prec < F.prec) (hemin : F.emin < G.emin) (hm : 0 ≤ m)
    (h : G.Halfway m) : F.nearest m = m := by
  have hgrid : G.emin ≤ G.grid m := le_max_left _ _
  have hsteps : 0 ≤ G.steps m := Int.floor_nonneg.mpr (div_nonneg hm (two_zpow_pos _).le)
  have hodd : m = ((2 * G.steps m + 1 : ℤ) : ℚ) * 2 ^ (G.grid m - 1) := by
    have hhalf : (2 : ℚ) ^ (G.grid m - 1) = 1 / 2 * 2 ^ G.grid m := by
      rw [zpow_sub_one₀ (by norm_num)]
      ring
    rw [hhalf]
    push_cast
    nth_rewrite 1 [h]
    ring
  have hbits : 2 * G.steps m + 1 < 2 ^ F.prec := by
    have hlt := steps_lt G m
    have hpow : (2 : ℤ) ^ (G.prec + 1) ≤ 2 ^ F.prec := pow_le_pow_right₀ (by norm_num) hprec
    rw [pow_succ] at hpow
    omega
  have hrounded := nearest_of_bits F (n := 2 * G.steps m + 1) (a := G.grid m - 1) (by omega) hbits (by omega)
  rw [← hodd] at hrounded
  exact hrounded

/-- Rounding to a finer format first makes no difference, unless it ends halfway. -/
theorem nearest_nearest {G : FloatFormat} (hprec : G.prec < F.prec) (hemin : F.emin < G.emin) (hx : 0 ≤ x)
    (h : ¬ G.Halfway (F.nearest x)) : G.nearest (F.nearest x) = G.nearest x := by
  by_contra hne
  rcases le_total x (F.nearest x) with hup | hdown
  · have hlt := (nearest_mono G hx hup).lt_of_ne (Ne.symm hne)
    obtain ⟨m, hxm, hmy, hhalf⟩ := exists_halfway G hx hup hlt
    have hmono := nearest_mono F hx hxm
    rw [nearest_of_halfway F hprec hemin (hx.trans hxm) hhalf] at hmono
    exact h (le_antisymm hmy hmono ▸ hhalf)
  · have hy := nearest_nonneg F hx
    have hlt := (nearest_mono G hy hdown).lt_of_ne hne
    obtain ⟨m, hym, hmx, hhalf⟩ := exists_halfway G hy hdown hlt
    have hmono := nearest_mono F (hy.trans hym) hmx
    rw [nearest_of_halfway F hprec hemin (hy.trans hym) hhalf] at hmono
    exact h (le_antisymm hym hmono ▸ hhalf)

end

end TrinoGateway.Lib
