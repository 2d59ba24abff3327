import Mathlib.Data.Finset.Lattice.Fold
import Mathlib.Order.Bounds.Basic
import CodeSurvey.Proofs.Metric.Cognitive
import CodeSurvey.Proofs.Source.BraceBody

/-!
# Nesting and the balance of braces

The nesting level behind a line counts open braces, and a stray closer does not bring it below zero. So it is not the
number of braces opened less those closed: each closer too many lowers the ground from which later openers are counted.
The level is the height above the lowest ground so far.

* `balance`: the braces opened less those closed in the first lines. `lowest`: its least value so far.
* `levelBefore_step`, `levelBefore_eq`: one line, and all of them: the level is the height above the lowest balance.
* `depth_isGreatest`: the nesting depth is the greatest rise of the balance.
* `levels_eq_balance_iff`: the levels are the balances if no prefix closes more braces than it opens.
* `levels_reflect`: all of it.
-/

namespace CodeSurvey.Nesting

open Cognitive (levelBefore le_foldl_max)

variable {language : Language} {t : Text} {i j : Nat}

/-! ## The balance and its least value -/

/-- The braces opened in the first `i` lines of a text, less those closed there. -/
def balance (t : Text) (i : Nat) : Int :=
  Block.balance ((Text.lines t).take i).flatten

/-- The least balance of the first lines, no lines and `i` lines included. -/
def lowest (t : Text) (i : Nat) : Int :=
  (Finset.range (i + 1)).inf' Finset.nonempty_range_add_one (balance t)

theorem balance_zero (t : Text) : balance t 0 = 0 :=
  rfl

theorem balance_succ (hi : i < (Text.lines t).length) :
    balance t (i + 1) = balance t i + Block.balance (Text.lines t)[i] := by
  rw [balance, List.take_succ_eq_append_getElem hi, List.flatten_append, List.flatten_singleton,
    Block.balance_append, balance]

theorem lowest_succ (t : Text) (i : Nat) : lowest t (i + 1) = min (lowest t i) (balance t (i + 1)) := by
  simp only [lowest, Finset.range_add_one (n := i + 1)]
  rw [Finset.inf'_insert Finset.nonempty_range_add_one]
  exact min_comm _ _

theorem lowest_le (h : j ≤ i) : lowest t i ≤ balance t j :=
  Finset.inf'_le _ (Finset.mem_range.2 (Nat.lt_succ_of_le h))

theorem exists_lowest (t : Text) (i : Nat) : ∃ j ≤ i, lowest t i = balance t j := by
  obtain ⟨j, hj, hlowest⟩ := Finset.exists_mem_eq_inf' (Finset.nonempty_range_add_one (n := i)) (balance t)
  exact ⟨j, Nat.le_of_lt_succ (Finset.mem_range.1 hj), hlowest⟩

/-! ## The level -/

theorem length_bracedLevels (ls : List Text) : ∀ depth, (bracedLevels depth ls).length = ls.length := by
  induction ls with
  | nil => exact fun _ => rfl
  | cons line ls ih => exact fun depth => congrArg (· + 1) (ih _)

theorem getD_bracedLevels (ls : List Text) : ∀ depth {i} (hi : i < ls.length),
    (bracedLevels depth ls).getD i 0 = depthAfter ((depth :: bracedLevels depth ls).getD i 0) ls[i] := by
  induction ls with
  | nil => exact fun _ _ hi => absurd hi (Nat.not_lt_zero _)
  | cons line ls ih =>
    intro depth i hi
    cases i with
    | zero => rfl
    | succ i => exact ih _ (Nat.lt_of_succ_lt_succ hi)

/-- **One line**: its openers and closers change the level, but not below zero. -/
theorem levelBefore_step (hbraces : language.usesBraces = true) (hi : i < (Text.lines t).length) :
    (levelBefore language t (i + 1) : Int) =
      max 0 (levelBefore language t i + (balance t (i + 1) - balance t i)) := by
  have hstep : levelBefore language t (i + 1) = depthAfter (levelBefore language t i) (Text.lines t)[i] := by
    simp only [levelBefore, levels, if_pos hbraces]
    exact getD_bracedLevels (Text.lines t) 0 hi
  rw [hstep, balance_succ hi, depthAfter, Block.balance]
  omega

/-- **All lines**: the level is the height above the lowest balance so far. -/
theorem levelBefore_eq (hbraces : language.usesBraces = true) (hi : i ≤ (Text.lines t).length) :
    (levelBefore language t i : Int) = balance t i - lowest t i := by
  induction i with
  | zero =>
    have hlow : lowest t 0 = balance t 0 := by
      obtain ⟨j, hj, hlow⟩ := exists_lowest t 0
      rwa [Nat.le_zero.1 hj] at hlow
    rw [hlow, Int.sub_self]
    rfl
  | succ i ih =>
    have hbefore := ih (Nat.le_of_succ_le hi)
    -- the level is held at zero exactly where the balance falls below all earlier ones
    rw [levelBefore_step hbraces hi, lowest_succ, hbefore]
    omega

theorem levels_eq_map (hbraces : language.usesBraces = true) :
    levels language t = (List.range (Text.lines t).length).map fun i => levelBefore language t (i + 1) := by
  have hlength : (levels language t).length = (Text.lines t).length := by
    rw [levels, if_pos hbraces, length_bracedLevels]
  refine List.ext_getElem (by rw [hlength, List.length_map, List.length_range]) ?_
  intro i hi _
  rw [List.getElem_map, List.getElem_range, levelBefore, List.getD_cons_succ, List.getD_eq_getElem _ _ hi]

/-! ## Depth and plain counts -/

theorem foldl_max_mem (l : List Nat) (a : Nat) : l.foldl max a = a ∨ l.foldl max a ∈ l := by
  induction l generalizing a with
  | nil => exact Or.inl rfl
  | cons b l ih =>
    rw [List.foldl_cons]
    rcases ih (max a b) with hstart | hrest
    · rcases Nat.le_total a b with hab | hba
      · right
        rw [hstart, Nat.max_eq_right hab]
        exact List.mem_cons_self
      · left
        rw [hstart, Nat.max_eq_left hba]
    · exact Or.inr (List.mem_cons_of_mem b hrest)

theorem levelBefore_le_depth (hbraces : language.usesBraces = true) (hi : i ≤ (Text.lines t).length) :
    levelBefore language t i ≤ depth language t := by
  cases i with
  | zero => exact Nat.zero_le _
  | succ i =>
    apply (le_foldl_max _ 0).2
    rw [levels_eq_map hbraces]
    exact List.mem_map.2 ⟨i, List.mem_range.2 hi, rfl⟩

theorem exists_levelBefore_eq_depth (hbraces : language.usesBraces = true) :
    ∃ i ≤ (Text.lines t).length, levelBefore language t i = depth language t := by
  rcases foldl_max_mem (levels language t) 0 with hzero | hmem
  · exact ⟨0, Nat.zero_le _, hzero.symm⟩
  · rw [levels_eq_map hbraces] at hmem
    obtain ⟨i, hi, hlevel⟩ := List.mem_map.1 hmem
    refine ⟨i + 1, List.mem_range.1 hi, ?_⟩
    rw [hlevel, ← levels_eq_map hbraces]
    rfl

/-- **The nesting depth is the greatest rise of the balance** from some line to a later one. -/
theorem depth_isGreatest (hbraces : language.usesBraces = true) :
    IsGreatest {rise : Int | ∃ i ≤ (Text.lines t).length, ∃ j ≤ i, rise = balance t i - balance t j}
      (depth language t) := by
  constructor
  · -- the rise up to the deepest line, from where the balance was lowest
    obtain ⟨i, hi, hlevel⟩ := exists_levelBefore_eq_depth (t := t) hbraces
    obtain ⟨j, hj, hlow⟩ := exists_lowest t i
    refine ⟨i, hi, j, hj, ?_⟩
    rw [← hlevel, levelBefore_eq hbraces hi, hlow]
  · rintro rise ⟨i, hi, j, hj, rfl⟩
    have hlevel := levelBefore_eq hbraces hi
    have hlow := lowest_le (t := t) hj
    have hdepth := levelBefore_le_depth hbraces hi
    omega

/-- **The levels are the balances exactly if no prefix closes more braces than it opens.** -/
theorem levels_eq_balance_iff (hbraces : language.usesBraces = true) :
    (levels language t).map (fun n : Nat => (n : Int)) =
        (List.range (Text.lines t).length).map (fun i => balance t (i + 1)) ↔
      ∀ i ≤ (Text.lines t).length, 0 ≤ balance t i := by
  rw [levels_eq_map hbraces, List.map_map, List.map_inj_left]
  constructor
  · intro h i hi
    cases i with
    | zero => exact Int.le_refl 0
    | succ i =>
      rw [← h i (List.mem_range.2 hi)]
      exact Int.natCast_nonneg _
  · intro h i hi
    have hi : i + 1 ≤ (Text.lines t).length := List.mem_range.1 hi
    -- no balance lies below the first one, which is zero
    have hlow : lowest t (i + 1) = 0 := by
      obtain ⟨j, hj, hlow⟩ := exists_lowest t (i + 1)
      have hfirst := lowest_le (t := t) (Nat.zero_le (i + 1))
      have hpos := h j (Nat.le_trans hj hi)
      rw [balance_zero] at hfirst
      omega
    rw [Function.comp_apply, levelBefore_eq hbraces hi, hlow, Int.sub_zero]

/-- **The clamped count of braces in closed form.** Behind each line, the nesting level is the balance of the lines so
far less the least balance of any prefix of them, the nesting depth is the greatest rise of the balance, and the levels
are the balances themselves exactly if no prefix closes more braces than it opens. -/
theorem levels_reflect (language : Language) (t : Text) (hbraces : language.usesBraces = true) :
    (levels language t).map (fun n : Nat => (n : Int)) =
      (List.range (Text.lines t).length).map (fun i => balance t (i + 1) - lowest t (i + 1)) ∧
    IsGreatest {rise : Int | ∃ i ≤ (Text.lines t).length, ∃ j ≤ i, rise = balance t i - balance t j}
      (depth language t) ∧
    ((levels language t).map (fun n : Nat => (n : Int)) =
        (List.range (Text.lines t).length).map (fun i => balance t (i + 1)) ↔
      ∀ i ≤ (Text.lines t).length, 0 ≤ balance t i) := by
  refine ⟨?_, depth_isGreatest hbraces, levels_eq_balance_iff hbraces⟩
  rw [levels_eq_map hbraces, List.map_map]
  apply List.map_congr_left
  intro i hi
  exact levelBefore_eq hbraces (List.mem_range.1 hi)

/-- Two closers without openers, and three openers behind them. -/
theorem levels_reflect_stray :
    let t : Text := "\x7d\x7d\n\x7b\n\x7b\x7b\n\x7d".toList
    Language.java.usesBraces = true ∧ levels .java t = [0, 1, 3, 2] ∧
      (levels .java t).map (fun n : Nat => (n : Int)) =
        (List.range 4).map (fun i => balance t (i + 1) - lowest t (i + 1)) := by
  intro t
  exact ⟨rfl, by decide, (levels_reflect .java t rfl).1⟩

end CodeSurvey.Nesting
