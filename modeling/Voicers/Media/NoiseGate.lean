import Mathlib.Data.Rat.Floor
import Mathlib.Data.Rat.Sqrt
import Voicers.Lib.Smoothing
import Voicers.Lib.Trace
import Voicers.Media.Capture

/-! The adaptive noise gate without rounding (`media/dsp.rs`). Its floor is
smoothed towards the levels of the frames and its gain towards a ramp between
two thresholds, so neither leaves the range of what it is smoothed towards. -/

namespace Voicers

open Lib

/-- Arithmetic without rounding over an ordered field, with any root. -/
abbrev exactArith {K : Type} [Field K] [LinearOrder K] [FloorSemiring K] (sqrt : K → K) :
    SampleArith where
  Sample := K
  ofRatio n d := n / d
  add x y := x + y
  sub x y := x - y
  mul x y := x * y
  div x y := x / y
  max x y := max x y
  abs x := |x|
  sqrt := sqrt
  lt x y := x < y
  le x y := x ≤ y
  floor x := ⌊x⌋₊

namespace AdaptiveNoiseGate

section

variable {ρ : SampleArith}

def new : AdaptiveNoiseGate ρ where
  noiseFloorRms := ρ.ofRatio 15 10000
  gain := 1

def reset (gate : AdaptiveNoiseGate ρ) : AdaptiveNoiseGate ρ :=
  { gate with
    noiseFloorRms := ρ.ofRatio 15 10000
    gain := 1 }

example : (VoiceProcessorChain.new ρ).noiseGate = new := rfl

def openThreshold (noiseFloorRms : ρ.Sample) : ρ.Sample :=
  ρ.max (noiseFloorRms * gateOpenMultiplier ρ) (ρ.ofRatio 3 1000)

def closeThreshold (noiseFloorRms : ρ.Sample) : ρ.Sample :=
  ρ.max (noiseFloorRms * gateCloseMultiplier ρ) (ρ.ofRatio 2 1000)

/-- The target gain for a level, between two thresholds. -/
def gainBetween (openThreshold closeThreshold rms : ρ.Sample) : ρ.Sample :=
  if ρ.le openThreshold rms then 1
  else if ρ.le rms closeThreshold then gateFloorGain ρ
  else
    let span := ρ.max (openThreshold - closeThreshold) (sampleEpsilon ρ)
    let ratio := (rms - closeThreshold) / span
    gateFloorGain ρ + (1 - gateFloorGain ρ) * ratio

theorem targetGain_eq (rms noiseFloorRms : ρ.Sample) :
    targetGain rms noiseFloorRms =
      gainBetween (openThreshold noiseFloorRms) (closeThreshold noiseFloorRms) rms := rfl

/-- One frame through the gate. -/
def call (gate : AdaptiveNoiseGate ρ) (frame : List ρ.Sample) :
    Option (List ρ.Sample × AdaptiveNoiseGate ρ) :=
  some (gate.process frame)

end

end AdaptiveNoiseGate

/-- A gate over the field that is told the level of each frame. -/
structure LevelGate (K : Type) where
  floor : K
  gain : K

namespace LevelGate

section

variable {K : Type} [Field K] [LinearOrder K]

def openThreshold (floor : K) : K := max (floor * (22 / 10)) (3 / 1000)

def closeThreshold (floor : K) : K := max (floor * (14 / 10)) (2 / 1000)

def target (stop start level : K) : K :=
  ramp (12 / 100) 1 start stop (max (stop - start) (1 / 2 ^ 23)) level

def nextFloor (gate : LevelGate K) (level : K) : K :=
  smooth gate.floor level (if level < gate.floor then 2 / 100 else 1 / 1000)

def nextTarget (gate : LevelGate K) (level : K) : K :=
  target (openThreshold (gate.nextFloor level)) (closeThreshold (gate.nextFloor level)) level

def step (gate : LevelGate K) (level : K) : LevelGate K where
  floor := gate.nextFloor level
  gain := smooth gate.gain (gate.nextTarget level)
    (if gate.gain < gate.nextTarget level then 35 / 100 else 8 / 100)

variable [IsStrictOrderedRing K]

theorem closeThreshold_lt_openThreshold (floor : K) :
    closeThreshold floor < openThreshold floor := by
  unfold closeThreshold openThreshold
  -- up to this floor the close threshold is below the least open threshold
  rcases le_or_gt floor (2 / 1000) with hlow | hhigh
  · refine lt_max_of_lt_right (max_lt ?_ ?_)
    · linarith
    · norm_num
  · refine lt_max_of_lt_left (max_lt ?_ ?_)
    · linarith
    · linarith

theorem target_mem_Icc (stop start level : K) : target stop start level ∈ Set.Icc (12 / 100) 1 :=
  ramp_mem_Icc (by norm_num) (lt_max_of_lt_right (by positivity)) (le_max_left _ _) level

theorem target_monotone (stop start : K) : Monotone (target stop start) :=
  ramp_monotone (by norm_num) (lt_max_of_lt_right (by positivity)) (le_max_left _ _)

theorem nextFloor_mem_Icc {gate : LevelGate K} {lo hi level : K}
    (hfloor : gate.floor ∈ Set.Icc lo hi) (hlevel : level ∈ Set.Icc lo hi) : gate.nextFloor level ∈ Set.Icc lo hi := by
  refine smooth_mem_Icc ?_ hfloor hlevel
  split_ifs
  · constructor <;> norm_num
  · constructor <;> norm_num

/-- The floor of a whole run lies between the least and the greatest of what
it started with and the levels it was told. -/
theorem run_floor (gate : LevelGate K) (levels : List K) :
    (levels.foldl step gate).floor ∈
      Set.Icc (levels.foldl min gate.floor) (levels.foldl max gate.floor) := by
  induction levels using List.reverseRecOn with
  | nil => exact ⟨le_rfl, le_rfl⟩
  | append_singleton levels level ih =>
    simp only [List.foldl_append, List.foldl_cons, List.foldl_nil]
    refine nextFloor_mem_Icc ?_ ⟨min_le_right _ _, le_max_right _ _⟩
    exact ⟨min_le_of_left_le ih.1, le_max_of_le_left ih.2⟩

theorem run_floor_nonneg {gate : LevelGate K} {levels : List K} (hfloor : 0 ≤ gate.floor)
    (hlevels : ∀ level ∈ levels, 0 ≤ level) : 0 ≤ (levels.foldl step gate).floor := by
  refine le_trans ?_ (run_floor gate levels).1
  induction levels using List.reverseRecOn with
  | nil => exact hfloor
  | append_singleton levels level ih =>
    rw [List.foldl_append]
    refine le_min (ih fun l hl => hlevels l ?_) (hlevels level ?_)
    · exact List.mem_append_left _ hl
    · exact List.mem_append_right _ List.mem_cons_self

theorem step_gain_mem_Icc {gate : LevelGate K} (hgain : gate.gain ∈ Set.Icc (12 / 100) 1)
    (level : K) : (gate.step level).gain ∈ Set.Icc (12 / 100) 1 := by
  refine smooth_mem_Icc ?_ hgain (target_mem_Icc _ _ level)
  split_ifs
  · constructor <;> norm_num
  · constructor <;> norm_num

end

end LevelGate

namespace AdaptiveNoiseGate

section

variable {K : Type} [Field K] [LinearOrder K] [FloorSemiring K] {sqrt : K → K}

def levelGate (gate : AdaptiveNoiseGate (exactArith sqrt)) : LevelGate K where
  floor := gate.noiseFloorRms
  gain := gate.gain

theorem exact_gateFloorGain : gateFloorGain (exactArith sqrt) = (12 / 100 : K) := by
  change ((12 : Nat) : K) / (100 : Nat) = 12 / 100
  simp only [Nat.cast_ofNat]

theorem exact_openThreshold (floor : K) :
    openThreshold (ρ := exactArith sqrt) floor = LevelGate.openThreshold floor := by
  change max (floor * (((22 : Nat) : K) / (10 : Nat))) (((3 : Nat) : K) / (1000 : Nat)) = _
  simp only [LevelGate.openThreshold, Nat.cast_ofNat]

theorem exact_closeThreshold (floor : K) :
    closeThreshold (ρ := exactArith sqrt) floor = LevelGate.closeThreshold floor := by
  change max (floor * (((14 : Nat) : K) / (10 : Nat))) (((2 : Nat) : K) / (1000 : Nat)) = _
  simp only [LevelGate.closeThreshold, Nat.cast_ofNat]

theorem exact_gainBetween (stop start rms : K) :
    gainBetween (ρ := exactArith sqrt) stop start rms = LevelGate.target stop start rms := by
  unfold LevelGate.target ramp
  change (if decide (stop ≤ rms) = true then ((1 : Nat) : K) / (1 : Nat)
    else if decide (rms ≤ start) = true then ((12 : Nat) : K) / (100 : Nat)
    else ((12 : Nat) : K) / (100 : Nat) +
      (((1 : Nat) : K) / (1 : Nat) - ((12 : Nat) : K) / (100 : Nat)) *
        ((rms - start) / max (stop - start) (((1 : Nat) : K) / ((2 ^ 23 : Nat) : K)))) = _
  simp only [decide_eq_true_eq, Nat.cast_one, div_one, Nat.cast_ofNat, Nat.cast_pow]

theorem exact_targetGain (rms floor : K) :
    targetGain (ρ := exactArith sqrt) rms floor =
      LevelGate.target (LevelGate.openThreshold floor) (LevelGate.closeThreshold floor) rms := by
  rw [targetGain_eq, exact_openThreshold, exact_closeThreshold, exact_gainBetween]

section

variable (gate : AdaptiveNoiseGate (exactArith sqrt)) (frame : List (exactArith sqrt).Sample)

theorem process_floor :
    (gate.process frame).2.noiseFloorRms = gate.levelGate.nextFloor (rmsLevel frame) := by
  change gate.noiseFloorRms + (rmsLevel frame - gate.noiseFloorRms) *
    (if decide (rmsLevel frame < gate.noiseFloorRms) = true then ((2 : Nat) : K) / (100 : Nat)
      else ((1 : Nat) : K) / (1000 : Nat)) = _
  simp only [decide_eq_true_eq, Nat.cast_one, Nat.cast_ofNat]
  rfl

theorem process_target :
    targetGain (rmsLevel frame) (gate.process frame).2.noiseFloorRms =
      gate.levelGate.nextTarget (rmsLevel frame) := by
  rw [process_floor, exact_targetGain]
  rfl

/-- Without rounding the gate sees of a frame only its level. -/
theorem levelGate_process :
    (gate.process frame).2.levelGate = gate.levelGate.step (rmsLevel frame) := by
  have hgain : (gate.process frame).2.gain = (gate.levelGate.step (rmsLevel frame)).gain := by
    have htarget := process_target gate frame
    change gate.gain + (targetGain _ (gate.process frame).2.noiseFloorRms - gate.gain) *
      (if decide (gate.gain < targetGain _ (gate.process frame).2.noiseFloorRms) = true
        then ((35 : Nat) : K) / (100 : Nat) else ((8 : Nat) : K) / (100 : Nat)) = _
    simp only [htarget, decide_eq_true_eq, Nat.cast_ofNat]
    rfl
  simp only [levelGate, process_floor, hgain]
  rfl

end

end

end AdaptiveNoiseGate

/-- The transitions of a gate: the frame it is given and the frame it leaves. -/
abbrev GateTransition (ρ : SampleArith) :=
  Transition (AdaptiveNoiseGate ρ) (List ρ.Sample) (List ρ.Sample)

section

variable {K : Type} [Field K] [LinearOrder K] [FloorSemiring K] {sqrt : K → K}

def levelsSeen (tr : List (GateTransition (exactArith sqrt))) : List K :=
  tr.map fun x => rmsLevel x.input

/-- What a run `tr` of a gate without rounding and the gate it leaves satisfy. -/
structure GateBounds (tr : List (GateTransition (exactArith sqrt)))
    (gate : AdaptiveNoiseGate (exactArith sqrt)) : Prop where
  floor_nonneg : (0 : K) ≤ gate.noiseFloorRms
  floor_range : gate.noiseFloorRms ∈
    Set.Icc ((levelsSeen tr).foldl min (15 / 10000)) ((levelsSeen tr).foldl max (15 / 10000))
  gain : gate.gain ∈ Set.Icc (gateFloorGain (exactArith sqrt)) (1 : K)
  thresholds : ∀ x ∈ tr, AdaptiveNoiseGate.closeThreshold x.after.noiseFloorRms <
    AdaptiveNoiseGate.openThreshold x.after.noiseFloorRms
  target : ∀ x ∈ tr, AdaptiveNoiseGate.targetGain (rmsLevel x.input) x.after.noiseFloorRms ∈
    Set.Icc (gateFloorGain (exactArith sqrt)) (1 : K)
  applied : ∀ x ∈ tr, x.after.gain ∈ Set.Icc (gateFloorGain (exactArith sqrt)) (1 : K) ∧
    x.output = x.input.map fun sample => sample * x.after.gain
  quieter : ∀ x ∈ tr, List.Forall₂ (fun sample out : K => |out| ≤ |sample|) x.input x.output

namespace AdaptiveNoiseGate

/-- What a call leaves, with the frame it gives back. -/
theorem call_eq_some {ρ : SampleArith} {gate gate' : AdaptiveNoiseGate ρ}
    {frame out : List ρ.Sample} (h : gate.call frame = some (out, gate')) :
    gate' = (gate.process frame).2 ∧ out = frame.map fun sample => sample * gate'.gain := by
  obtain ⟨rfl, rfl⟩ := Prod.mk.inj (Option.some.inj h)
  exact ⟨rfl, rfl⟩

theorem levelGate_run {start gate : AdaptiveNoiseGate (exactArith sqrt)}
    {tr : List (GateTransition (exactArith sqrt))} (h : Trace call start tr gate) :
    gate.levelGate = (levelsSeen tr).foldl LevelGate.step start.levelGate := by
  induction h with
  | nil => rfl
  | cons hs _ ih =>
    obtain ⟨rfl, -⟩ := call_eq_some hs
    rw [ih, levelGate_process]
    rfl

theorem levelGate_fresh {start : AdaptiveNoiseGate (exactArith sqrt)}
    (hstart : start = .new ∨ ∃ gate : AdaptiveNoiseGate (exactArith sqrt), start = gate.reset) :
    start.levelGate = ⟨15 / 10000, 1⟩ := by
  have hnew : (new : AdaptiveNoiseGate (exactArith sqrt)).levelGate = ⟨15 / 10000, 1⟩ := by
    change LevelGate.mk (((15 : Nat) : K) / (10000 : Nat)) (((1 : Nat) : K) / (1 : Nat)) = _
    simp only [Nat.cast_ofNat, Nat.cast_one, div_one]
  rcases hstart with rfl | ⟨gate, rfl⟩
  · exact hnew
  · exact hnew

variable [IsStrictOrderedRing K]

theorem call_gain_mem_Icc {gate gate' : AdaptiveNoiseGate (exactArith sqrt)}
    {frame out : List (exactArith sqrt).Sample}
    (hgain : gate.gain ∈ Set.Icc (gateFloorGain (exactArith sqrt)) (1 : K))
    (h : gate.call frame = some (out, gate')) :
    gate'.gain ∈ Set.Icc (gateFloorGain (exactArith sqrt)) (1 : K) := by
  rw [exact_gateFloorGain] at hgain ⊢
  obtain ⟨rfl, -⟩ := call_eq_some h
  have hstep : (gate.levelGate.step (rmsLevel frame)).gain ∈ Set.Icc (12 / 100) (1 : K) :=
    LevelGate.step_gain_mem_Icc hgain _
  rw [← levelGate_process] at hstep
  exact hstep

theorem abs_mul_gain_le {gain : K} (hgain : gain ∈ Set.Icc (12 / 100) 1) (sample : K) :
    |sample * gain| ≤ |sample| := by
  have hnonneg : 0 ≤ gain := le_trans (by norm_num) hgain.1
  rw [abs_mul, abs_of_nonneg hnonneg]
  exact mul_le_of_le_one_right (abs_nonneg sample) hgain.2

end AdaptiveNoiseGate

variable [IsStrictOrderedRing K]

theorem noise_gate_bounds {start gate : AdaptiveNoiseGate (exactArith sqrt)}
    {tr : List (GateTransition (exactArith sqrt))}
    (hstart : start = .new ∨ ∃ gate : AdaptiveNoiseGate (exactArith sqrt), start = gate.reset)
    (h : Trace AdaptiveNoiseGate.call start tr gate)
    (hrms : ∀ x ∈ tr, (0 : K) ≤ rmsLevel x.input) :
    GateBounds tr gate ∧
    (∀ openThreshold closeThreshold : K, Monotone fun rms : K =>
      AdaptiveNoiseGate.gainBetween (ρ := exactArith sqrt) openThreshold closeThreshold rms) ∧
    ∀ noiseFloorRms : K, Monotone fun rms : K =>
      AdaptiveNoiseGate.targetGain (ρ := exactArith sqrt) rms noiseFloorRms := by
  have hfresh := AdaptiveNoiseGate.levelGate_fresh hstart
  have hrun := AdaptiveNoiseGate.levelGate_run h
  rw [hfresh] at hrun
  have hfloor : gate.noiseFloorRms = ((levelsSeen tr).foldl LevelGate.step ⟨15 / 10000, 1⟩).floor :=
    congrArg LevelGate.floor hrun
  have hstartGain : start.gain ∈ Set.Icc (gateFloorGain (exactArith sqrt)) (1 : K) := by
    have hone : start.gain = (1 : K) := congrArg LevelGate.gain hfresh
    rw [AdaptiveNoiseGate.exact_gateFloorGain, hone]
    constructor <;> norm_num
  have hkeep : ∀ g frame out g', g.gain ∈ Set.Icc (gateFloorGain (exactArith sqrt)) (1 : K) →
      AdaptiveNoiseGate.call g frame = some (out, g') →
      g'.gain ∈ Set.Icc (gateFloorGain (exactArith sqrt)) (1 : K) :=
    fun _ _ _ _ hg hc => AdaptiveNoiseGate.call_gain_mem_Icc hg hc
  have happlied : ∀ x ∈ tr, x.after.gain ∈ Set.Icc (gateFloorGain (exactArith sqrt)) (1 : K) ∧
      x.output = x.input.map fun sample => sample * x.after.gain := by
    intro x hx
    obtain ⟨hbefore, hcall⟩ := h.of_mem hkeep hstartGain hx
    exact ⟨hkeep _ _ _ _ hbefore hcall, (AdaptiveNoiseGate.call_eq_some hcall).2⟩
  refine ⟨?_, fun stop start => ?_, fun floor => ?_⟩
  · exact
      { floor_nonneg := by
          rw [hfloor]
          refine LevelGate.run_floor_nonneg (by norm_num) fun level hl => ?_
          obtain ⟨x, hx, rfl⟩ := List.mem_map.mp hl
          exact hrms x hx
        floor_range := by
          rw [hfloor]
          exact LevelGate.run_floor ⟨15 / 10000, 1⟩ (levelsSeen tr)
        gain := h.invariant hkeep hstartGain
        thresholds := fun x _ => by
          rw [AdaptiveNoiseGate.exact_openThreshold, AdaptiveNoiseGate.exact_closeThreshold]
          exact LevelGate.closeThreshold_lt_openThreshold _
        target := fun x _ => by
          rw [AdaptiveNoiseGate.exact_targetGain, AdaptiveNoiseGate.exact_gateFloorGain]
          exact LevelGate.target_mem_Icc _ _ _
        applied := happlied
        quieter := by
          intro x hx
          obtain ⟨hgain, hout⟩ := happlied x hx
          rw [AdaptiveNoiseGate.exact_gateFloorGain] at hgain
          rw [hout, List.forall₂_map_right_iff]
          exact List.forall₂_same.mpr fun s _ => AdaptiveNoiseGate.abs_mul_gain_le hgain s }
  · simp only [AdaptiveNoiseGate.exact_gainBetween]
    exact LevelGate.target_monotone stop start
  · simp only [AdaptiveNoiseGate.exact_targetGain]
    exact LevelGate.target_monotone _ _

end

theorem rmsLevel_nonneg {K : Type} [Field K] [LinearOrder K] [FloorSemiring K] {sqrt : K → K}
    (hsqrt : ∀ x, 0 ≤ sqrt x) (frame : List (exactArith sqrt).Sample) :
    (0 : K) ≤ rmsLevel frame := by
  unfold rmsLevel
  split_ifs
  · change (0 : K) ≤ ((0 : Nat) : K) / (1 : Nat)
    rw [Nat.cast_zero, zero_div]
  · exact hsqrt _

theorem noise_gate_bounds_twoFrames : ∃ tr gate,
    Trace AdaptiveNoiseGate.call (.new : AdaptiveNoiseGate (exactArith Rat.sqrt)) tr gate ∧
    tr.map Transition.input = [[1 / 10, -1 / 10], [0, 0]] ∧ GateBounds tr gate := by
  obtain ⟨tr, gate, htrace, hinput⟩ : ∃ tr gate,
      Trace AdaptiveNoiseGate.call (.new : AdaptiveNoiseGate (exactArith Rat.sqrt)) tr gate ∧
      tr.map Transition.input = [[1 / 10, -1 / 10], [0, 0]] :=
    ⟨_, _, .cons rfl (.cons rfl (.nil _)), rfl⟩
  refine ⟨tr, gate, htrace, hinput, (noise_gate_bounds (.inl rfl) htrace fun x _ => ?_).1⟩
  exact rmsLevel_nonneg Rat.sqrt_nonneg x.input

end Voicers
