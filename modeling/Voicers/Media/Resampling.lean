import Mathlib.Tactic.Linarith
import Voicers.Lib.Cursor
import Voicers.Media.Capture

/-! When the resampling loop of the microphone takes more samples off its buffer
than the buffer has. The cursor is exact: it is a rational number. -/

namespace Voicers

open Lib

/-- The arithmetic of the pipeline without rounding, for any root of the gate's level. -/
def rationalArith (sqrt : ℚ → ℚ) : SampleArith where
  Sample := ℚ
  ofRatio n d := n / d
  add x y := x + y
  sub x y := x - y
  mul x y := x * y
  div x y := x / y
  max x y := max x y
  abs x := |x|
  sqrt := sqrt
  lt x y := x < y
  le x y := x ≤ y
  floor x := ⌊x⌋₊

/-- The chunks of the capture device, one after another. -/
def CapturePipeline.ingestAll {ρ : SampleArith} (fuel : Nat) :
    List (CaptureChunk ρ) → CapturePipeline ρ → Ingested ρ
  | [], p => .ready p
  | chunk :: chunks, p =>
    match p.ingest fuel chunk with
    | .ready p => ingestAll fuel chunks p
    | .panicked => .panicked
    | .unfinished => .unfinished

/-- The input samples that are taken off the buffer with so many output samples. -/
def samplesConsumed (rate : UInt32) (outputs : Nat) : Nat :=
  outputs * rate.toNat / sampleRateHz.toNat

/-- Of two samples or more: some output sample falls on the last of them, or less
than two places past it. -/
def DrainFits (rate : UInt32) (count : Nat) : Prop :=
  count < 2 ∨ ∃ outputs, sampleRateHz.toNat * (count - 1) ≤ outputs * rate.toNat ∧
    outputs * rate.toNat < sampleRateHz.toNat * (count + 1)

/-- The rate of the last chunk that was not empty, and the samples that came
at it since another rate was heard. -/
def countSamples {ρ : SampleArith} (held : UInt32 × Nat) (chunk : CaptureChunk ρ) : UInt32 × Nat :=
  if chunk.samples.isEmpty then held
  else if held.1 = chunk.sampleRateHz then (held.1, held.2 + chunk.samples.length)
  else (chunk.sampleRateHz, chunk.samples.length)

/-- What has come fits after every chunk. -/
def ChunksFit {ρ : SampleArith} (held : UInt32 × Nat) (chunks : List (CaptureChunk ρ)) : Prop :=
  ∀ front, front <+: chunks →
    DrainFits (front.foldl countSamples held).1 (front.foldl countSamples held).2

section

variable {rate : UInt32} {count : Nat}

theorem countSamples_fst {ρ : SampleArith} (held : UInt32 × Nat) {chunk : CaptureChunk ρ}
    (h : chunk.samples.isEmpty = false) : (countSamples held chunk).1 = chunk.sampleRateHz := by
  rw [countSamples, h, if_neg Bool.false_ne_true]
  split
  · next hsame => exact hsame
  · rfl

theorem chunksFit_cons {ρ : SampleArith} {held : UInt32 × Nat} {chunk : CaptureChunk ρ}
    {chunks : List (CaptureChunk ρ)} :
    ChunksFit held (chunk :: chunks) ↔
      DrainFits held.1 held.2 ∧ ChunksFit (countSamples held chunk) chunks := by
  constructor
  · intro h
    refine ⟨h [] List.nil_prefix, fun front hfront => ?_⟩
    exact h (chunk :: front) (List.cons_prefix_cons.mpr ⟨rfl, hfront⟩)
  · rintro ⟨hheld, hrest⟩ front hfront
    cases front with
    | nil => exact hheld
    | cons first front =>
      obtain ⟨rfl, hafter⟩ := List.cons_prefix_cons.mp hfront
      exact hrest front hafter

theorem countSamples_le {ρ : SampleArith} (held : UInt32 × Nat) (chunk : CaptureChunk ρ) :
    (countSamples held chunk).2 ≤ held.2 + chunk.samples.length := by
  unfold countSamples
  split
  · exact Nat.le_add_right _ _
  · split
    · exact Nat.le_refl _
    · exact Nat.le_add_left _ _

theorem samplesConsumed_mono (rate : UInt32) {k m : Nat} (h : k ≤ m) :
    samplesConsumed rate k ≤ samplesConsumed rate m :=
  Nat.div_le_div_right (Nat.mul_le_mul_right _ h)

theorem samplesConsumed_lt_iff {outputs : Nat} :
    samplesConsumed rate outputs < count ↔
      outputs * rate.toNat < sampleRateHz.toNat * count := by
  rw [samplesConsumed, Nat.div_lt_iff_lt_mul (by decide), Nat.mul_comm count]

/-- Where the loop finds two samples to go between, the next output sample
consumes no more than all that came. -/
theorem drainFits_iff (hrate : 0 < rate.toNat) :
    DrainFits rate count ↔ ∀ outputs, samplesConsumed rate outputs + 2 ≤ count →
      samplesConsumed rate (outputs + 1) ≤ count := by
  constructor
  · rintro (hcount | ⟨last, hpast, hbefore⟩) outputs hfound
    · omega
    · have hless : outputs * rate.toNat < sampleRateHz.toNat * (count - 1) :=
        samplesConsumed_lt_iff.mp (by omega)
      have hlt : outputs < last := Nat.lt_of_mul_lt_mul_right (Nat.lt_of_lt_of_le hless hpast)
      have hnext : (outputs + 1) * rate.toNat ≤ last * rate.toNat :=
        Nat.mul_le_mul_right _ hlt
      exact Nat.le_of_lt_succ (samplesConsumed_lt_iff.mpr (Nat.lt_of_le_of_lt hnext hbefore))
  · intro h
    by_cases hcount : count < 2
    · exact .inl hcount
    -- the last output sample that finds two
    let last := (sampleRateHz.toNat * (count - 1) - 1) / rate.toNat
    have hpos : 0 < sampleRateHz.toNat * (count - 1) := Nat.mul_pos (by decide) (by omega)
    have hlast : last * rate.toNat ≤ sampleRateHz.toNat * (count - 1) - 1 :=
      Nat.div_mul_le_self _ _
    have hpast : sampleRateHz.toNat * (count - 1) - 1 < (last + 1) * rate.toNat := by
      rw [Nat.mul_comm (last + 1)]
      exact Nat.lt_mul_div_succ _ hrate
    have hfound : samplesConsumed rate last < count - 1 :=
      samplesConsumed_lt_iff.mpr (Nat.lt_of_le_sub_one hpos hlast)
    refine .inr ⟨last + 1, Nat.le_of_pred_lt hpast, ?_⟩
    exact samplesConsumed_lt_iff.mp (Nat.lt_succ_of_le (h last (by omega)))

theorem drainFits_of_consumed (hrate : 0 < rate.toNat) {outputs : Nat}
    (hle : samplesConsumed rate outputs ≤ count)
    (h : ¬ samplesConsumed rate outputs + 2 ≤ count) : DrainFits rate count := by
  refine (drainFits_iff hrate).mpr fun earlier hearlier => ?_
  have hless : earlier < outputs := by
    by_contra hle
    have hmono := samplesConsumed_mono rate (Nat.not_lt.mp hle)
    omega
  exact Nat.le_trans (samplesConsumed_mono rate (Nat.succ_le_of_lt hless)) hle

/-- Up to twice the output rate any number of samples fits. Above it some number does not. -/
theorem drainFits_forall_iff (hrate : 0 < rate.toNat) :
    (∀ count, DrainFits rate count) ↔ rate.toNat ≤ 2 * sampleRateHz.toNat := by
  simp only [drainFits_iff hrate]
  constructor
  · intro h
    have hpace : ∀ outputs, samplesConsumed rate outputs ≤ 2 * outputs := by
      intro outputs
      induction outputs with
      | zero => simp [samplesConsumed]
      | succ outputs ih =>
        have hnext := h (samplesConsumed rate outputs + 2) outputs (Nat.le_refl _)
        omega
    have hsecond := hpace sampleRateHz.toNat
    rwa [samplesConsumed, Nat.mul_div_cancel_left _ (by decide)] at hsecond
  · intro hle count outputs hfound
    have hnext : (outputs + 1) * rate.toNat ≤
        outputs * rate.toNat + 2 * sampleRateHz.toNat := by
      rw [Nat.succ_mul]
      omega
    have hconsumed := Nat.div_le_div_right (c := sampleRateHz.toNat) hnext
    rw [Nat.add_mul_div_right _ _ (by decide)] at hconsumed
    exact Nat.le_trans hconsumed hfound

end

namespace CapturePipeline

/-- The cursor after the next output sample, before whole samples are taken off. -/
def nextCursor {ρ : SampleArith} (p : CapturePipeline ρ) : ρ.Sample :=
  p.outputCursor + (p.sampleRateHz.toNat : ρ.Sample) / (Voicers.sampleRateHz.toNat : ρ.Sample)

/-- What the loop has done with the samples of one rate. -/
structure At {sqrt : ℚ → ℚ} (p : CapturePipeline (rationalArith sqrt)) (rate : UInt32)
    (outputs count : Nat) : Prop where
  rate_eq : p.sampleRateHz = rate
  length_eq : p.inputSamples.length + samplesConsumed rate outputs = count
  cursor_eq : p.outputCursor = fraction Voicers.sampleRateHz.toNat (outputs * rate.toNat)

section

variable {sqrt : ℚ → ℚ} {p : CapturePipeline (rationalArith sqrt)} {rate : UInt32}
  {outputs count : Nat}

theorem sub_natCast (x : ℚ) (n : Nat) :
    (rationalArith sqrt).sub x ((rationalArith sqrt).ofRatio n 1) = x - (n : ℚ) := by
  change x - (n : ℚ) / ((1 : Nat) : ℚ) = x - (n : ℚ)
  rw [Nat.cast_one, div_one]

theorem sub_natCast_zero (x : ℚ) :
    (rationalArith sqrt).sub x ((rationalArith sqrt).ofRatio 0 1) = x := by
  rw [sub_natCast, Nat.cast_zero, sub_zero]

theorem At.finishFrame (h : p.At rate outputs count) : p.finishFrame.At rate outputs count := by
  unfold CapturePipeline.finishFrame
  split
  · exact ⟨h.rate_eq, h.length_eq, h.cursor_eq⟩
  · exact h

theorem At.floor_cursor (h : p.At rate outputs count) :
    (rationalArith sqrt).floor p.outputCursor = 0 := by
  rw [h.cursor_eq]
  exact floor_fraction (by decide) _

theorem At.nextCursor_eq (h : p.At rate outputs count) :
    p.nextCursor = (fraction Voicers.sampleRateHz.toNat (outputs * rate.toNat) +
      (rate.toNat : ℚ) / (Voicers.sampleRateHz.toNat : ℚ) : ℚ) := by
  rw [nextCursor, h.rate_eq, h.cursor_eq]
  change fraction Voicers.sampleRateHz.toNat (outputs * rate.toNat) +
    ((rate.toNat : ℚ) / ((1 : Nat) : ℚ)) /
      ((Voicers.sampleRateHz.toNat : ℚ) / ((1 : Nat) : ℚ)) = _
  rw [Nat.cast_one, div_one, div_one]

theorem At.floor_nextCursor (h : p.At rate outputs count) :
    (rationalArith sqrt).floor p.nextCursor =
      samplesConsumed rate (outputs + 1) - samplesConsumed rate outputs := by
  rw [h.nextCursor_eq, samplesConsumed, Nat.succ_mul]
  exact floor_fraction_add (by decide) _ _

theorem At.nextCursor_sub (h : p.At rate outputs count) :
    p.nextCursor - (((rationalArith sqrt).floor p.nextCursor : Nat) : (rationalArith sqrt).Sample) =
      fraction Voicers.sampleRateHz.toNat ((outputs + 1) * rate.toNat) := by
  rw [h.floor_nextCursor, h.nextCursor_eq, samplesConsumed, Nat.succ_mul]
  exact (sub_natCast _ _).trans (fraction_add_sub (by decide) _ _)

theorem resample_eq {ρ : SampleArith} (p : CapturePipeline ρ) (left right : ρ.Sample) :
    p.resample left right =
      if p.inputSamples.length < ρ.floor p.nextCursor then none
      else some (CapturePipeline.finishFrame { p with
        frameAssembly := p.frameAssembly ++
          [left + (right - left) * (p.outputCursor - (ρ.floor p.outputCursor : ρ.Sample))]
        inputSamples := p.inputSamples.drop (ρ.floor p.nextCursor)
        outputCursor := if 0 < ρ.floor p.nextCursor then
            p.nextCursor - (ρ.floor p.nextCursor : ρ.Sample)
          else p.nextCursor }) := rfl

/-- One output sample consumes too much, or leaves the cursor one sample further. -/
theorem At.resample (h : p.At rate outputs count) (left right : (rationalArith sqrt).Sample) :
    if count < samplesConsumed rate (outputs + 1) then p.resample left right = none
    else ∃ p', p.resample left right = some p' ∧ p'.At rate (outputs + 1) count := by
  have hmono := samplesConsumed_mono rate (Nat.le_add_right outputs 1)
  have hlength := h.length_eq
  rw [resample_eq, h.floor_nextCursor]
  split
  · next hshort => exact if_pos (by omega)
  · next henough =>
    refine ⟨_, if_neg (by omega), At.finishFrame ⟨h.rate_eq, ?_, ?_⟩⟩
    · simp only [List.length_drop]
      omega
    · simp only
      have hsub := h.nextCursor_sub
      rw [h.floor_nextCursor] at hsub
      split
      · exact hsub
      · next hzero =>
        rw [show samplesConsumed rate (outputs + 1) - samplesConsumed rate outputs = 0 by omega]
          at hsub
        exact (sub_natCast_zero p.nextCursor).symm.trans hsub

/-- One turn of the loop, when it finds two samples. -/
theorem At.turn (h : p.At rate outputs count) (hfound : samplesConsumed rate outputs + 2 ≤ count)
    (fuel : Nat) :
    if count < samplesConsumed rate (outputs + 1) then
      p.rebuildReadyFrames (fuel + 1) = .panicked
    else ∃ p' : CapturePipeline (rationalArith sqrt), p'.At rate (outputs + 1) count ∧
      p.rebuildReadyFrames (fuel + 1) = p'.rebuildReadyFrames fuel := by
  have hlength := h.length_eq
  obtain ⟨left, right, rest, hinput⟩ : ∃ left right rest,
      p.inputSamples = left :: right :: rest := by
    rcases hinput : p.inputSamples with _ | ⟨left, _ | ⟨right, rest⟩⟩
    · simp only [hinput, List.length_nil] at hlength
      omega
    · simp only [hinput, List.length_cons, List.length_nil] at hlength
      omega
    · exact ⟨left, right, rest, rfl⟩
  have hdrop : p.inputSamples.drop ((rationalArith sqrt).floor p.outputCursor) =
      left :: right :: rest := by rw [h.floor_cursor, hinput, List.drop_zero]
  have hstep := h.resample left right
  rw [CapturePipeline.rebuildReadyFrames]
  simp only [hdrop]
  split
  · next hover =>
    rw [if_pos hover] at hstep
    rw [hstep]
  · next hover =>
    rw [if_neg hover] at hstep
    obtain ⟨p', hp', hat⟩ := hstep
    exact ⟨p', hat, by rw [hp']⟩

theorem At.rest (h : p.At rate outputs count)
    (hfound : ¬ samplesConsumed rate outputs + 2 ≤ count) (fuel : Nat) :
    p.rebuildReadyFrames (fuel + 1) = .ready p := by
  have hlength := h.length_eq
  rw [CapturePipeline.rebuildReadyFrames]
  split
  · next left right rest hinput =>
    rw [h.floor_cursor, List.drop_zero] at hinput
    simp only [hinput, List.length_cons] at hlength
    omega
  · rfl

/-- A run of the loop on samples that fit ends; on others it takes too many. -/
theorem At.rebuildReadyFrames {fuel : Nat} (h : p.At rate outputs count) (hrate : 0 < rate.toNat)
    (hfuel : 0 < fuel) (hbound : 48000 * count < fuel + outputs) :
    (DrainFits rate count → ∃ p' outputs',
      p.rebuildReadyFrames fuel = .ready p' ∧ p'.At rate outputs' count) ∧
    (¬ DrainFits rate count → p.rebuildReadyFrames fuel = .panicked) := by
  induction fuel generalizing p outputs with
  | zero => omega
  | succ fuel ih =>
    by_cases hfound : samplesConsumed rate outputs + 2 ≤ count
    · have hless : outputs * rate.toNat < 48000 * count := samplesConsumed_lt_iff.mp (by omega)
      have houtputs : outputs ≤ outputs * rate.toNat := Nat.le_mul_of_pos_right _ hrate
      have hturn := h.turn hfound fuel
      by_cases hover : count < samplesConsumed rate (outputs + 1)
      · rw [if_pos hover] at hturn
        have hfails : ¬ DrainFits rate count := by
          intro hfits
          have hnext := (drainFits_iff hrate).mp hfits outputs hfound
          omega
        exact ⟨fun hfits => absurd hfits hfails, fun _ => hturn⟩
      · rw [if_neg hover] at hturn
        obtain ⟨p', hat, hturn⟩ := hturn
        rw [hturn]
        exact ih hat (by omega) (by omega)
    · have hlength := h.length_eq
      have hfits := drainFits_of_consumed hrate (by omega) hfound
      exact ⟨fun _ => ⟨p, outputs, h.rest hfound fuel, h⟩, fun hfails => absurd hfits hfails⟩

theorem zero_eq_fraction (rate : UInt32) :
    (0 : (rationalArith sqrt).Sample) = fraction Voicers.sampleRateHz.toNat (0 * rate.toNat) := by
  rw [Nat.zero_mul, fraction, Nat.zero_mod]
  change ((0 : Nat) : ℚ) / ((1 : Nat) : ℚ) = ((0 : Nat) : ℚ) / (Voicers.sampleRateHz.toNat : ℚ)
  rw [Nat.cast_zero, zero_div, zero_div]

theorem at_new : (CapturePipeline.new (rationalArith sqrt)).At Voicers.sampleRateHz 0 0 := by
  refine ⟨rfl, ?_, zero_eq_fraction Voicers.sampleRateHz⟩
  rw [samplesConsumed, Nat.zero_mul]
  rfl

theorem At.accept (h : p.At rate outputs count) (chunk : CaptureChunk (rationalArith sqrt))
    (hsamples : chunk.samples.isEmpty = false) :
    ∃ outputs', (p.accept chunk).At (countSamples (rate, count) chunk).1 outputs'
      (countSamples (rate, count) chunk).2 := by
  have hlength := h.length_eq
  rw [countSamples, hsamples, if_neg Bool.false_ne_true]
  by_cases hsame : rate = chunk.sampleRateHz
  · have haccept : p.accept chunk = { p with inputSamples := p.inputSamples ++ chunk.samples } := by
      rw [CapturePipeline.accept, if_pos (h.rate_eq.trans hsame)]
    rw [if_pos hsame, haccept]
    refine ⟨outputs, h.rate_eq, ?_, h.cursor_eq⟩
    simp only [List.length_append]
    omega
  · have hother : ¬ p.sampleRateHz = chunk.sampleRateHz := by
      rw [h.rate_eq]
      exact hsame
    rw [if_neg hsame, CapturePipeline.accept, if_neg hother]
    refine ⟨0, rfl, ?_, ?_⟩
    · simp [reset, samplesConsumed]
    · exact zero_eq_fraction chunk.sampleRateHz

theorem At.dropOldest (h : p.At rate outputs count) : p.dropOldest.At rate outputs count :=
  ⟨h.rate_eq, h.length_eq, h.cursor_eq⟩

/-- After a chunk the loop has done with all samples of its rate, if they fit. -/
theorem At.ingest {fuel : Nat} (h : p.At rate outputs count)
    {chunk : CaptureChunk (rationalArith sqrt)} (hsamples : chunk.samples.isEmpty = false)
    (hrate : 0 < chunk.sampleRateHz.toNat)
    (hbound : 48000 * (countSamples (rate, count) chunk).2 < fuel) :
    let held := countSamples (rate, count) chunk
    (DrainFits held.1 held.2 →
      ∃ p' outputs', p.ingest fuel chunk = .ready p' ∧ p'.At held.1 outputs' held.2) ∧
    (¬ DrainFits held.1 held.2 → p.ingest fuel chunk = .panicked) := by
  obtain ⟨outputs', haccept⟩ := h.accept chunk hsamples
  have hlast : (countSamples (rate, count) chunk).1 = chunk.sampleRateHz :=
    countSamples_fst (rate, count) hsamples
  obtain ⟨hends, hover⟩ := haccept.rebuildReadyFrames (by rw [hlast]; exact hrate)
    (show 0 < fuel by omega) (by omega)
  rw [CapturePipeline.ingest, hsamples, if_neg Bool.false_ne_true]
  constructor
  · intro hfits
    obtain ⟨p', outputs', hp', hat⟩ := hends hfits
    rw [hp']
    exact ⟨_, outputs', rfl, hat.dropOldest⟩
  · intro hfails
    rw [hover hfails]

/-- All chunks are taken when what has come fits after each; else one of them is too many. -/
theorem At.ingestAll {fuel : Nat} (h : p.At rate outputs count) (hheld : DrainFits rate count)
    {chunks : List (CaptureChunk (rationalArith sqrt))}
    (hrates : ∀ chunk ∈ chunks, 0 < chunk.sampleRateHz)
    (hbound : 48000 * (count + (chunks.map (·.samples.length)).sum) < fuel) :
    (ChunksFit (rate, count) chunks → ∃ p', p.ingestAll fuel chunks = .ready p') ∧
    (¬ ChunksFit (rate, count) chunks → p.ingestAll fuel chunks = .panicked) := by
  induction chunks generalizing p rate outputs count with
  | nil =>
    refine ⟨fun _ => ⟨p, rfl⟩, fun hfails => absurd ?_ hfails⟩
    intro front hfront
    rw [List.prefix_nil.mp hfront]
    exact hheld
  | cons chunk chunks ih =>
    have hrest : ∀ chunk ∈ chunks, 0 < chunk.sampleRateHz := fun c hc =>
      hrates c (List.mem_cons_of_mem chunk hc)
    rw [List.map_cons, List.sum_cons] at hbound
    rw [CapturePipeline.ingestAll, chunksFit_cons]
    cases hsamples : chunk.samples.isEmpty with
    | true =>
      have hsame : countSamples (rate, count) chunk = (rate, count) := by
        rw [countSamples, hsamples, if_pos rfl]
      rw [CapturePipeline.ingest, hsamples, if_pos rfl, hsame, and_iff_right hheld]
      exact ih h hheld hrest (by omega)
    | false =>
      have hrate : 0 < chunk.sampleRateHz.toNat :=
        UInt32.lt_iff_toNat_lt.mp (hrates chunk List.mem_cons_self)
      have hcount := countSamples_le (rate, count) chunk
      obtain ⟨hends, hover⟩ := h.ingest hsamples hrate (show _ < fuel by omega)
      rw [and_iff_right hheld]
      by_cases hfits : DrainFits (countSamples (rate, count) chunk).1
          (countSamples (rate, count) chunk).2
      · obtain ⟨p', outputs', hp', hat⟩ := hends hfits
        have hleft : 48000 * ((countSamples (rate, count) chunk).2 +
            (chunks.map (·.samples.length)).sum) < fuel := by omega
        rw [hp']
        exact ih hat hfits hrest hleft
      · rw [hover hfits]
        refine ⟨fun hall => absurd (hall [] List.nil_prefix) hfits, fun _ => rfl⟩

end

end CapturePipeline

/-- Nothing has been captured. -/
theorem drainFits_zero (rate : UInt32) : DrainFits rate 0 := .inl Nat.two_pos

/-- A device that captures at no more than twice the output rate is safe. -/
theorem chunksFit_of_le {ρ : SampleArith} {held : UInt32 × Nat} {chunks : List (CaptureChunk ρ)}
    (hheld : 0 < held.1.toNat ∧ held.1.toNat ≤ 2 * sampleRateHz.toNat)
    (h : ∀ chunk ∈ chunks,
      0 < chunk.sampleRateHz.toNat ∧ chunk.sampleRateHz.toNat ≤ 2 * sampleRateHz.toNat) :
    ChunksFit held chunks := by
  induction chunks generalizing held with
  | nil =>
    intro front hfront
    rw [List.prefix_nil.mp hfront]
    exact (drainFits_forall_iff hheld.1).mpr hheld.2 _
  | cons chunk chunks ih =>
    refine chunksFit_cons.mpr ⟨(drainFits_forall_iff hheld.1).mpr hheld.2 _, ih ?_ fun c hc =>
      h c (List.mem_cons_of_mem chunk hc)⟩
    cases hsamples : chunk.samples.isEmpty with
    | true => rwa [countSamples, hsamples, if_pos rfl]
    | false =>
      rw [countSamples_fst held hsamples]
      exact h chunk List.mem_cons_self

theorem capture_drain_iff (sqrt : ℚ → ℚ) (chunks : List (CaptureChunk (rationalArith sqrt)))
    (hrates : ∀ chunk ∈ chunks, 0 < chunk.sampleRateHz) (fuel : Nat)
    (hfuel : 48000 * (chunks.map (·.samples.length)).sum < fuel) :
    ((∃ p, (CapturePipeline.new (rationalArith sqrt)).ingestAll fuel chunks = .ready p) ↔
      ChunksFit (sampleRateHz, 0) chunks) ∧
    ((CapturePipeline.new (rationalArith sqrt)).ingestAll fuel chunks = .panicked ↔
      ¬ ChunksFit (sampleRateHz, 0) chunks) := by
  obtain ⟨hends, hover⟩ := CapturePipeline.at_new.ingestAll (drainFits_zero sampleRateHz) hrates
    (by rw [Nat.zero_add]; exact hfuel)
  refine ⟨⟨?_, hends⟩, ⟨?_, hover⟩⟩
  · rintro ⟨p, hp⟩
    by_contra hfails
    rw [hover hfails] at hp
    cases hp
  · intro hpanic hfits
    obtain ⟨p, hp⟩ := hends hfits
    rw [hp] at hpanic
    cases hpanic

/-- A buffer of silence from a device at the given rate. -/
def silentChunk (rate : UInt32) (count : Nat) : CaptureChunk (rationalArith id) where
  sampleRateHz := rate
  samples := List.replicate count 0

theorem capture_drain_iff_silent :
    ∃ p, (CapturePipeline.new (rationalArith id)).ingestAll 73728001
      [silentChunk 96000 1024, silentChunk 48000 512] = .ready p := by
  refine (capture_drain_iff id _ (by decide) _ ?_).1.mpr (chunksFit_of_le (by decide)
    (by decide))
  simp only [silentChunk, List.map_cons, List.map_nil, List.length_replicate, List.sum_cons,
    List.sum_nil]
  decide

/-- A device at 176.4 kHz hands over 512 samples. -/
theorem highRate_overdrains :
    (CapturePipeline.new (rationalArith id)).ingestAll 24576001 [silentChunk 176400 512] =
      .panicked := by
  refine (CapturePipeline.at_new.ingestAll (drainFits_zero sampleRateHz) (by decide) ?_).2 ?_
  · simp only [silentChunk, List.map_cons, List.map_nil, List.length_replicate, List.sum_cons,
      List.sum_nil]
    decide
  · intro hall
    have hcount : countSamples (sampleRateHz, 0) (silentChunk 176400 512) = (176400, 512) := by
      rw [countSamples, if_neg (by decide), if_neg (by decide), silentChunk,
        List.length_replicate]
    have hfits := (chunksFit_cons.mp hall).2 [] List.nil_prefix
    rw [List.foldl_nil, hcount] at hfits
    obtain hshort | ⟨outputs, hpast, hbefore⟩ := hfits
    · omega
    · change 48000 * 511 ≤ outputs * 176400 at hpast
      change outputs * 176400 < 48000 * 513 at hbefore
      omega

end Voicers
