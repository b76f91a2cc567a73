import Mathlib.Analysis.Convex.Basic
import Mathlib.Tactic.GCongr
import Mathlib.Tactic.Linarith

/-! Exponential smoothing and clamped ramps over an ordered field: a smoothed
value stays where it and its targets are, and a ramp is monotone between its
two levels. -/

namespace Lib

section

variable {K : Type*} [Field K] [LinearOrder K] [IsStrictOrderedRing K]

def smooth (value target rate : K) : K := value + (target - value) * rate

theorem smooth_mem_Icc {lo hi value target rate : K} (hrate : rate ∈ Set.Icc 0 1)
    (hvalue : value ∈ Set.Icc lo hi) (htarget : target ∈ Set.Icc lo hi) :
    smooth value target rate ∈ Set.Icc lo hi := by
  have h := (convex_Icc lo hi).add_smul_sub_mem hvalue htarget hrate
  rwa [smul_eq_mul, mul_comm] at h

/-- `lo` up to `start`, `hi` from `stop` on, and in between a line that rises
by `hi - lo` over `span`. -/
def ramp (lo hi start stop span x : K) : K :=
  if stop ≤ x then hi else if x ≤ start then lo else lo + (hi - lo) * ((x - start) / span)

variable {lo hi start stop span : K}

/-- The line of a ramp stays between its levels where the ramp uses it. -/
theorem ramp_line_mem_Icc (hle : lo ≤ hi) (hpos : 0 < span) (hspan : stop - start ≤ span) {x : K}
    (hstart : start < x) (hstop : x < stop) :
    lo + (hi - lo) * ((x - start) / span) ∈ Set.Icc lo hi := by
  have hratio : (x - start) / span ∈ Set.Icc 0 1 := by
    constructor
    · exact div_nonneg (by linarith) hpos.le
    · rw [div_le_one hpos]
      linarith
  exact smooth_mem_Icc hratio ⟨le_rfl, hle⟩ ⟨hle, le_rfl⟩

theorem ramp_mem_Icc (hle : lo ≤ hi) (hpos : 0 < span) (hspan : stop - start ≤ span) (x : K) :
    ramp lo hi start stop span x ∈ Set.Icc lo hi := by
  unfold ramp
  split_ifs with hstop hstart
  · exact ⟨hle, le_rfl⟩
  · exact ⟨le_rfl, hle⟩
  · exact ramp_line_mem_Icc hle hpos hspan (not_le.mp hstart) (not_le.mp hstop)

theorem ramp_monotone (hle : lo ≤ hi) (hpos : 0 < span) (hspan : stop - start ≤ span) :
    Monotone (ramp lo hi start stop span) := by
  intro x y hxy
  have hx := ramp_mem_Icc hle hpos hspan x
  have hy := ramp_mem_Icc hle hpos hspan y
  by_cases hstop : stop ≤ y
  · have hhigh : ramp lo hi start stop span y = hi := if_pos hstop
    exact hx.2.trans hhigh.ge
  · have hxstop : ¬ stop ≤ x := fun h => hstop (h.trans hxy)
    by_cases hstart : x ≤ start
    · have hlow : ramp lo hi start stop span x = lo := by
        rw [ramp, if_neg hxstop, if_pos hstart]
      exact hlow.le.trans hy.1
    · have hystart : ¬ y ≤ start := fun h => hstart (hxy.trans h)
      simp only [ramp, hstop, hxstop, hstart, hystart, if_false]
      have hslope : 0 ≤ hi - lo := sub_nonneg.mpr hle
      gcongr

end

end Lib
