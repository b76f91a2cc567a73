import Voicers.Media.Engine

/-! The microphone pipeline (`media.rs`, `media/dsp.rs`): captured chunks are
resampled to 48 kHz and cut into frames, which are filtered, gated and queued.
The arithmetic of the samples is a parameter; `Binary32` is the finite part of
the code's own. -/

namespace Voicers

/-- The `f32` operations of the pipeline. `ofRatio n d` is the sample nearest
to `n / d`, and `floor x` the cast `x.floor() as usize`. -/
structure SampleArith where
  Sample : Type
  ofRatio : Nat → Nat → Sample
  add : Sample → Sample → Sample
  sub : Sample → Sample → Sample
  mul : Sample → Sample → Sample
  div : Sample → Sample → Sample
  max : Sample → Sample → Sample
  abs : Sample → Sample
  sqrt : Sample → Sample
  lt : Sample → Sample → Bool
  le : Sample → Sample → Bool
  floor : Sample → Nat

/-- A finite binary32 number, `mantissa * 2 ^ exponent`, in the one form that
`round` gives it. Overflow, the sign of zero and NaN are left out. -/
structure Binary32 where
  mantissa : Int
  exponent : Int
deriving DecidableEq

namespace Binary32

/-- `n / 2 ^ shift` to the nearest, ties to even. -/
def shiftRightEven (n shift : Nat) : Nat :=
  let quotient := n / 2 ^ shift
  let rest := 2 * (n % 2 ^ shift)
  if rest < 2 ^ shift ∨ (rest = 2 ^ shift ∧ quotient % 2 = 0) then quotient else quotient + 1

/-- A mantissa of 24 bits, or fewer when the exponent is the least, `-149`. -/
def round (mantissa exponent : Int) : Binary32 :=
  let shift := Max.max ((mantissa.natAbs.log2 : Int) - 23) (-149 - exponent)
  let n := shiftRightEven (mantissa.natAbs * 2 ^ (-shift).toNat) shift.toNat
  if n = 0 then ⟨0, 0⟩
  -- rounding up may carry into a bit of its own
  else if n = 2 ^ 24 then ⟨mantissa.sign * (2 ^ 23 : Nat), exponent + shift + 1⟩
  else ⟨mantissa.sign * n, exponent + shift⟩

def scaled (x : Binary32) (exponent : Int) : Int :=
  x.mantissa * (2 ^ (x.exponent - exponent).toNat : Nat)

def add (x y : Binary32) : Binary32 :=
  let exponent := min x.exponent y.exponent
  round (x.scaled exponent + y.scaled exponent) exponent

def sub (x y : Binary32) : Binary32 :=
  let exponent := min x.exponent y.exponent
  round (x.scaled exponent - y.scaled exponent) exponent

def mul (x y : Binary32) : Binary32 :=
  round (x.mantissa * y.mantissa) (x.exponent + y.exponent)

-- The last bit of the quotient and of the root below stands for all the bits
-- that follow, so that one rounding is enough.
def div (x y : Binary32) : Binary32 :=
  let bits := 26 + y.mantissa.natAbs.log2
  let n := x.mantissa.natAbs * 2 ^ bits
  let d := y.mantissa.natAbs
  let quotient := 2 * (n / d) + if n % d = 0 then 0 else 1
  round (x.mantissa.sign * y.mantissa.sign * quotient) (x.exponent - y.exponent - bits - 1)

def lt (x y : Binary32) : Bool :=
  let exponent := min x.exponent y.exponent
  x.scaled exponent < y.scaled exponent

def le (x y : Binary32) : Bool := !y.lt x

/-- The integer root of `n`, bit by bit from the highest. -/
def rootBits (n : Nat) : Nat → Nat → Nat
  | 0, root => root
  | bit + 1, root =>
    let next := root + 2 ^ bit
    rootBits n bit (if next * next ≤ n then next else root)

def sqrt (x : Binary32) : Binary32 :=
  let n := x.mantissa.toNat * 2 ^ (x.exponent % 2).toNat * 2 ^ 52
  let root := rootBits n (n.log2 / 2 + 1) 0
  round (2 * root + if root * root = n then 0 else 1) ((x.exponent - x.exponent % 2 - 52) / 2 - 1)

def floor (x : Binary32) : Nat :=
  (x.mantissa * (2 ^ x.exponent.toNat : Nat) / (2 ^ (-x.exponent).toNat : Nat)).toNat

end Binary32

def binary32 : SampleArith where
  Sample := Binary32
  ofRatio n d := Binary32.div ⟨n, 0⟩ ⟨d, 0⟩
  add := Binary32.add
  sub := Binary32.sub
  mul := Binary32.mul
  div := Binary32.div
  max x y := if x.lt y then y else x
  abs x := ⟨x.mantissa.natAbs, x.exponent⟩
  sqrt := Binary32.sqrt
  lt := Binary32.lt
  le := Binary32.le
  floor := Binary32.floor

variable (ρ : SampleArith)

instance : Add ρ.Sample := ⟨ρ.add⟩
instance : Sub ρ.Sample := ⟨ρ.sub⟩
instance : Mul ρ.Sample := ⟨ρ.mul⟩
instance : Div ρ.Sample := ⟨ρ.div⟩
instance (n : Nat) : OfNat ρ.Sample n := ⟨ρ.ofRatio n 1⟩
instance : NatCast ρ.Sample := ⟨fun n => ρ.ofRatio n 1⟩

def maxCaptureQueueDepth : Nat := 8

section

def hpfAlpha : ρ.Sample := ρ.ofRatio 995 1000
def noiseFloorAttack : ρ.Sample := ρ.ofRatio 2 100
def noiseFloorDecay : ρ.Sample := ρ.ofRatio 1 1000
def gateOpenMultiplier : ρ.Sample := ρ.ofRatio 22 10
def gateCloseMultiplier : ρ.Sample := ρ.ofRatio 14 10
def gateFloorGain : ρ.Sample := ρ.ofRatio 12 100
def gateGainAttack : ρ.Sample := ρ.ofRatio 35 100
def gateGainRelease : ρ.Sample := ρ.ofRatio 8 100
def sampleEpsilon : ρ.Sample := ρ.ofRatio 1 (2 ^ 23)

structure HighPassFilter where
  prevInput : ρ.Sample
  prevOutput : ρ.Sample

structure AdaptiveNoiseGate where
  noiseFloorRms : ρ.Sample
  gain : ρ.Sample

structure VoiceProcessorChain where
  highPass : HighPassFilter ρ
  noiseGate : AdaptiveNoiseGate ρ

structure CaptureChunk where
  sampleRateHz : UInt32
  samples : List ρ.Sample

structure CapturePipeline where
  sampleRateHz : UInt32
  inputSamples : List ρ.Sample
  outputCursor : ρ.Sample
  frameAssembly : List ρ.Sample
  readyFrames : List (List ρ.Sample)
  lastFrame : List ρ.Sample
  voiceProcessor : VoiceProcessorChain ρ
  inputGain : ρ.Sample

/-- The resampling loop ends, asks for more samples than there are, or has
not ended with the fuel it was given. -/
inductive Ingested
  | ready (capture : CapturePipeline ρ)
  | panicked
  | unfinished

def VoiceProcessorChain.new : VoiceProcessorChain ρ where
  highPass := { prevInput := 0, prevOutput := 0 }
  noiseGate := { noiseFloorRms := ρ.ofRatio 15 10000, gain := 1 }

def silenceFrame : List ρ.Sample := List.replicate frameSamples 0

def CapturePipeline.new : CapturePipeline ρ where
  sampleRateHz := Voicers.sampleRateHz
  inputSamples := []
  outputCursor := 0
  frameAssembly := []
  readyFrames := []
  lastFrame := silenceFrame ρ
  voiceProcessor := .new ρ
  inputGain := 1

end

section

variable {ρ}

def rmsLevel (samples : List ρ.Sample) : ρ.Sample :=
  if samples.isEmpty then 0
  else ρ.sqrt (samples.foldl (fun energy sample => energy + sample * sample) 0 /
    (samples.length : ρ.Sample))

def HighPassFilter.process : HighPassFilter ρ → List ρ.Sample → List ρ.Sample × HighPassFilter ρ
  | filter, [] => ([], filter)
  | filter, sample :: frame =>
    let output := hpfAlpha ρ * (filter.prevOutput + sample - filter.prevInput)
    let r := process { prevInput := sample, prevOutput := output } frame
    (output :: r.1, r.2)

def AdaptiveNoiseGate.targetGain (rms noiseFloorRms : ρ.Sample) : ρ.Sample :=
  let openThreshold := ρ.max (noiseFloorRms * gateOpenMultiplier ρ) (ρ.ofRatio 3 1000)
  let closeThreshold := ρ.max (noiseFloorRms * gateCloseMultiplier ρ) (ρ.ofRatio 2 1000)
  if ρ.le openThreshold rms then 1
  else if ρ.le rms closeThreshold then gateFloorGain ρ
  else
    let span := ρ.max (openThreshold - closeThreshold) (sampleEpsilon ρ)
    let ratio := (rms - closeThreshold) / span
    gateFloorGain ρ + (1 - gateFloorGain ρ) * ratio

def AdaptiveNoiseGate.process (gate : AdaptiveNoiseGate ρ) (frame : List ρ.Sample) :
    List ρ.Sample × AdaptiveNoiseGate ρ :=
  let rms := rmsLevel frame
  let noiseUpdate := if ρ.lt rms gate.noiseFloorRms then noiseFloorAttack ρ else noiseFloorDecay ρ
  let noiseFloorRms := gate.noiseFloorRms + (rms - gate.noiseFloorRms) * noiseUpdate
  let targetGain := targetGain rms noiseFloorRms
  let smoothing := if ρ.lt gate.gain targetGain then gateGainAttack ρ else gateGainRelease ρ
  let gain := gate.gain + (targetGain - gate.gain) * smoothing
  (frame.map fun sample => sample * gain, { noiseFloorRms := noiseFloorRms, gain := gain })

def VoiceProcessorChain.processFrame (chain : VoiceProcessorChain ρ) (frame : List ρ.Sample) :
    List ρ.Sample × VoiceProcessorChain ρ :=
  let filtered := chain.highPass.process frame
  let gated := chain.noiseGate.process filtered.1
  (gated.1, { highPass := filtered.2, noiseGate := gated.2 })

/-- `gain.clamp(0.0, 2.0)` of `percent_to_gain`. -/
def inputGainOf (percent : UInt8) : ρ.Sample :=
  let gain := ((min percent.toNat 200 : Nat) : ρ.Sample) / 100
  if ρ.lt gain 0 then 0 else if ρ.lt 2 gain then 2 else gain

namespace CapturePipeline

def reset (p : CapturePipeline ρ) : CapturePipeline ρ :=
  { p with
    sampleRateHz := Voicers.sampleRateHz
    inputSamples := []
    outputCursor := 0
    frameAssembly := []
    readyFrames := []
    lastFrame := p.lastFrame.map fun _ => 0
    voiceProcessor := .new ρ }

def takeReadyFrame (p : CapturePipeline ρ) : Option (List ρ.Sample × CapturePipeline ρ) :=
  match p.readyFrames with
  | [] => none
  | frame :: rest => some (frame, { p with readyFrames := rest, lastFrame := frame })

def lastFrame? (p : CapturePipeline ρ) : Option (List ρ.Sample) :=
  if p.lastFrame.length = frameSamples then some p.lastFrame else none

def setInputGain (p : CapturePipeline ρ) (percent : UInt8) : CapturePipeline ρ :=
  { p with inputGain := inputGainOf percent }

/-- A frame that is complete is processed and queued. -/
def finishFrame (p : CapturePipeline ρ) : CapturePipeline ρ :=
  if p.frameAssembly.length = frameSamples then
    let processed := p.voiceProcessor.processFrame p.frameAssembly
    let frame := if ρ.lt (sampleEpsilon ρ) (ρ.abs (p.inputGain - 1)) then
        processed.1.map fun sample => sample * p.inputGain
      else processed.1
    { p with
      frameAssembly := []
      voiceProcessor := processed.2
      readyFrames := p.readyFrames ++ [frame] }
  else p

/-- One output sample, between the input samples `left` and `right`; `none`
when it would consume more input than there is. -/
def resample (p : CapturePipeline ρ) (left right : ρ.Sample) : Option (CapturePipeline ρ) :=
  let fraction := p.outputCursor - (ρ.floor p.outputCursor : ρ.Sample)
  let step := (p.sampleRateHz.toNat : ρ.Sample) / (Voicers.sampleRateHz.toNat : ρ.Sample)
  let outputCursor := p.outputCursor + step
  let consumed := ρ.floor outputCursor
  if p.inputSamples.length < consumed then none
  else some (finishFrame { p with
    frameAssembly := p.frameAssembly ++ [left + (right - left) * fraction]
    inputSamples := p.inputSamples.drop consumed
    outputCursor := if 0 < consumed then outputCursor - (consumed : ρ.Sample) else outputCursor })

def rebuildReadyFrames : Nat → CapturePipeline ρ → Ingested ρ
  | 0, _ => .unfinished
  | fuel + 1, p =>
    match p.inputSamples.drop (ρ.floor p.outputCursor) with
    | left :: right :: _ =>
      match p.resample left right with
      | none => .panicked
      | some p => rebuildReadyFrames fuel p
    | _ => .ready p

/-- The input a chunk leaves for the loop: another sample rate starts afresh. -/
def accept (p : CapturePipeline ρ) (chunk : CaptureChunk ρ) : CapturePipeline ρ :=
  let p := if p.sampleRateHz = chunk.sampleRateHz then p
    else { p.reset with sampleRateHz := chunk.sampleRateHz }
  { p with inputSamples := p.inputSamples ++ chunk.samples }

def dropOldest (p : CapturePipeline ρ) : CapturePipeline ρ :=
  { p with readyFrames := p.readyFrames.drop (p.readyFrames.length - maxCaptureQueueDepth) }

def ingest (fuel : Nat) (p : CapturePipeline ρ) (chunk : CaptureChunk ρ) : Ingested ρ :=
  if chunk.samples.isEmpty then .ready p
  else
    match rebuildReadyFrames fuel (p.accept chunk) with
    | .ready p => .ready p.dropOldest
    | .panicked => .panicked
    | .unfinished => .unfinished

/-- Frames have the length the encoder is given. -/
def Framed (p : CapturePipeline ρ) : Prop :=
  p.lastFrame.length = frameSamples ∧ ∀ frame ∈ p.readyFrames, frame.length = frameSamples

/-- What samples do to the pipeline: they leave the gain alone and make whole
frames only. -/
structure Keeps (p p' : CapturePipeline ρ) : Prop where
  gain : p'.inputGain = p.inputGain
  framed : p.Framed → p'.Framed

theorem Keeps.trans {p p' p'' : CapturePipeline ρ} (h : p.Keeps p') (h' : p'.Keeps p'') :
    p.Keeps p'' :=
  ⟨h'.gain.trans h.gain, fun hp => h'.framed (h.framed hp)⟩

end CapturePipeline

theorem HighPassFilter.process_length (filter : HighPassFilter ρ) (frame : List ρ.Sample) :
    (filter.process frame).1.length = frame.length := by
  induction frame generalizing filter with
  | nil => rfl
  | cons sample frame ih => simp only [process, List.length_cons, ih]

theorem VoiceProcessorChain.processFrame_length (chain : VoiceProcessorChain ρ)
    (frame : List ρ.Sample) : (chain.processFrame frame).1.length = frame.length := by
  simp only [processFrame, AdaptiveNoiseGate.process, List.length_map,
    HighPassFilter.process_length]

namespace CapturePipeline

theorem framed_new : (CapturePipeline.new ρ).Framed := by
  constructor
  · exact List.length_replicate
  · intro frame hf
    cases hf

theorem reset_keeps (p : CapturePipeline ρ) : p.Keeps p.reset := by
  refine ⟨rfl, fun h => ⟨?_, ?_⟩⟩
  · simpa only [reset, List.length_map] using h.1
  · intro frame hf
    cases hf

/-- All a pipeline keeps across a reset is its gain. -/
theorem reset_eq {p q : CapturePipeline ρ} (hp : p.Framed) (hq : q.Framed)
    (hgain : p.inputGain = q.inputGain) : p.reset = q.reset := by
  have hlast : (p.lastFrame.map fun _ => (0 : ρ.Sample)) = q.lastFrame.map fun _ => 0 := by
    rw [List.map_const', List.map_const', hp.1, hq.1]
  simp only [reset, hlast, hgain]

theorem finishFrame_keeps (p : CapturePipeline ρ) : p.Keeps p.finishFrame := by
  unfold finishFrame
  by_cases hlen : p.frameAssembly.length = frameSamples
  · rw [if_pos hlen]
    refine ⟨rfl, fun h => ⟨h.1, fun frame hf => ?_⟩⟩
    rcases List.mem_append.mp hf with hf | hf
    · exact h.2 frame hf
    · rw [List.mem_singleton.mp hf]
      split
      · rw [List.length_map, VoiceProcessorChain.processFrame_length, hlen]
      · rw [VoiceProcessorChain.processFrame_length, hlen]
  · rw [if_neg hlen]
    exact ⟨rfl, id⟩

theorem resample_keeps {p p' : CapturePipeline ρ} {left right : ρ.Sample}
    (h : p.resample left right = some p') : p.Keeps p' := by
  simp only [resample, Option.ite_none_left_eq_some, Option.some.injEq] at h
  obtain ⟨_, rfl⟩ := h
  refine Keeps.trans ?_ (finishFrame_keeps _)
  exact ⟨rfl, id⟩

theorem rebuildReadyFrames_keeps {fuel : Nat} {p p' : CapturePipeline ρ}
    (h : rebuildReadyFrames fuel p = .ready p') : p.Keeps p' := by
  induction fuel generalizing p with
  | zero => cases h
  | succ fuel ih =>
    simp only [rebuildReadyFrames] at h
    split at h
    · next left right _ _ =>
      cases hr : p.resample left right with
      | none => simp [hr] at h
      | some q =>
        simp only [hr] at h
        exact (resample_keeps hr).trans (ih h)
    · obtain rfl := Ingested.ready.inj h
      exact ⟨rfl, id⟩

theorem accept_keeps (p : CapturePipeline ρ) (chunk : CaptureChunk ρ) :
    p.Keeps (p.accept chunk) := by
  unfold accept
  by_cases hrate : p.sampleRateHz = chunk.sampleRateHz
  · rw [if_pos hrate]
    exact ⟨rfl, id⟩
  · rw [if_neg hrate]
    exact p.reset_keeps.trans ⟨rfl, id⟩

theorem dropOldest_keeps (p : CapturePipeline ρ) : p.Keeps p.dropOldest :=
  ⟨rfl, fun h => ⟨h.1, fun frame hf => h.2 frame (List.mem_of_mem_drop hf)⟩⟩

theorem ingest_keeps {fuel : Nat} {p p' : CapturePipeline ρ} {chunk : CaptureChunk ρ}
    (h : p.ingest fuel chunk = .ready p') : p.Keeps p' := by
  unfold ingest at h
  split at h
  · obtain rfl := Ingested.ready.inj h
    exact ⟨rfl, id⟩
  · cases hr : rebuildReadyFrames fuel (p.accept chunk) with
    | ready q =>
      simp only [hr] at h
      obtain rfl := Ingested.ready.inj h
      exact ((p.accept_keeps chunk).trans (rebuildReadyFrames_keeps hr)).trans q.dropOldest_keeps
    | panicked => simp [hr] at h
    | unfinished => simp [hr] at h

theorem takeReadyFrame_keeps {p p' : CapturePipeline ρ} {frame : List ρ.Sample}
    (h : p.takeReadyFrame = some (frame, p')) : p.Keeps p' := by
  unfold takeReadyFrame at h
  split at h
  · cases h
  · next hready =>
    obtain ⟨rfl, rfl⟩ := Prod.mk.inj (Option.some.inj h)
    refine ⟨rfl, fun hp => ⟨hp.2 _ ?_, fun frame hf => hp.2 frame ?_⟩⟩
    · rw [hready]
      exact List.mem_cons_self
    · rw [hready]
      exact List.mem_cons_of_mem _ hf

theorem rebuildReadyFrames_succ {fuel : Nat} {p : CapturePipeline ρ}
    (h : rebuildReadyFrames fuel p ≠ .unfinished) :
    rebuildReadyFrames (fuel + 1) p = rebuildReadyFrames fuel p := by
  induction fuel generalizing p with
  | zero => exact absurd rfl h
  | succ fuel ih =>
    rw [rebuildReadyFrames]
    rw [rebuildReadyFrames] at h ⊢
    split
    · next left right _ hinput =>
      simp only [hinput] at h
      cases hr : p.resample left right with
      | none => rfl
      | some q =>
        simp only [hr] at h ⊢
        exact ih h
    · rfl

theorem ingest_le {fuel fuel' : Nat} (hle : fuel ≤ fuel') {p : CapturePipeline ρ}
    {chunk : CaptureChunk ρ} (h : p.ingest fuel chunk ≠ .unfinished) :
    p.ingest fuel' chunk = p.ingest fuel chunk := by
  induction hle with
  | refl => rfl
  | step _ ih =>
    rw [← ih]
    rw [← ih] at h
    unfold ingest at h ⊢
    by_cases hempty : chunk.samples.isEmpty = true
    · simp only [hempty, if_true]
    · simp only [hempty] at h ⊢
      rw [rebuildReadyFrames_succ]
      intro hr
      simp [hr] at h

end CapturePipeline

end

instance : DecidableEq binary32.Sample := inferInstanceAs (DecidableEq Binary32)

namespace CapturePipeline

section

variable {p : CapturePipeline binary32} {x y : binary32.Sample} {rest : List binary32.Sample}

theorem resample_copy (hrate : p.sampleRateHz = 48000) (hcursor : p.outputCursor = 0)
    (hinput : p.inputSamples = x :: y :: rest) (hx : x + (y - x) * 0 = x) :
    p.resample x y = some (finishFrame { p with
      frameAssembly := p.frameAssembly ++ [x]
      inputSamples := y :: rest }) := by
  have hfraction : (0 : binary32.Sample) - (binary32.floor 0 : binary32.Sample) = 0 := by decide
  have hnext : (0 : binary32.Sample) + ((48000 : UInt32).toNat : binary32.Sample) /
      (Voicers.sampleRateHz.toNat : binary32.Sample) = 1 := by decide
  have hone : binary32.floor 1 = 1 := by decide
  have hback : (1 : binary32.Sample) - ((1 : Nat) : binary32.Sample) = 0 := by decide
  simp only [resample, hrate, hcursor, hfraction, hx, hnext, hone, hback, hinput]
  simp

theorem rebuildReadyFrames_copy (hrate : p.sampleRateHz = 48000) (hcursor : p.outputCursor = 0)
    (hinput : p.inputSamples = x :: y :: rest) (hx : x + (y - x) * 0 = x) (fuel : Nat) :
    rebuildReadyFrames (fuel + 1) p = rebuildReadyFrames fuel (finishFrame { p with
      frameAssembly := p.frameAssembly ++ [x]
      inputSamples := y :: rest }) := by
  have hfloor : binary32.floor 0 = 0 := by decide
  rw [rebuildReadyFrames]
  simp only [hcursor, hfloor, hinput, List.drop_zero, resample_copy hrate hcursor hinput hx]

theorem rebuildReadyFrames_end (hcursor : p.outputCursor = 0) (hinput : p.inputSamples = [x])
    (fuel : Nat) : rebuildReadyFrames (fuel + 1) p = .ready p := by
  have hfloor : binary32.floor 0 = 0 := by decide
  rw [rebuildReadyFrames]
  simp only [hcursor, hfloor, hinput, List.drop_zero]

theorem rebuildReadyFrames_silence (hrate : p.sampleRateHz = 48000) (hcursor : p.outputCursor = 0)
    (hy : 0 + (y - 0) * 0 = (0 : binary32.Sample)) (n fuel : Nat)
    (hn : p.frameAssembly.length + n < frameSamples)
    (hinput : p.inputSamples = List.replicate n 0 ++ y :: rest) :
    rebuildReadyFrames (fuel + n) p = rebuildReadyFrames fuel { p with
      frameAssembly := p.frameAssembly ++ List.replicate n 0
      inputSamples := y :: rest } := by
  induction n generalizing p with
  | zero =>
    have hrest : y :: rest = p.inputSamples := by rw [hinput]; rfl
    simp only [hrest, List.replicate_zero, List.append_nil, Nat.add_zero]
  | succ n ih =>
    obtain ⟨z, zs, hz, hzs⟩ : ∃ z zs, List.replicate n 0 ++ y :: rest = z :: zs ∧
        0 + (z - 0) * 0 = (0 : binary32.Sample) := by
      cases n with
      | zero => exact ⟨y, rest, rfl, hy⟩
      | succ n => exact ⟨0, List.replicate n 0 ++ y :: rest, rfl, by decide⟩
    have hcons : p.inputSamples = 0 :: z :: zs := by
      rw [hinput, List.replicate_succ, List.cons_append, hz]
    have hshort : (p.frameAssembly ++ [0]).length ≠ frameSamples := by
      rw [List.length_append, List.length_singleton]
      omega
    rw [← Nat.add_assoc, rebuildReadyFrames_copy hrate hcursor hcons hzs, finishFrame,
      if_neg hshort, ih]
    · simp only [List.append_assoc, List.singleton_append, List.replicate_succ]
    · exact hrate
    · exact hcursor
    · simp only [List.length_append, List.length_singleton]
      omega
    · exact hz.symm

end

end CapturePipeline

theorem HighPassFilter.process_silence (n : Nat) (frame : List binary32.Sample) :
    ((⟨0, 0⟩ : HighPassFilter binary32).process (List.replicate n 0 ++ frame)).1 =
      List.replicate n 0 ++ ((⟨0, 0⟩ : HighPassFilter binary32).process frame).1 := by
  have hzero : hpfAlpha binary32 * (0 + 0 - 0) = 0 := by decide
  induction n with
  | zero => rfl
  | succ n ih => simp only [List.replicate_succ, List.cons_append, process, hzero, ih]

theorem rmsLevel_silence (n : Nat) (x : binary32.Sample) :
    rmsLevel (List.replicate n 0 ++ [x]) =
      binary32.sqrt ((0 + x * x) / ((n + 1 : Nat) : binary32.Sample)) := by
  have hzero : (0 : binary32.Sample) + 0 * 0 = 0 := by decide
  have henergy : (List.replicate n (0 : binary32.Sample)).foldl
      (fun energy sample => energy + sample * sample) 0 = 0 := by
    induction n with
    | zero => rfl
    | succ n ih => rw [List.replicate_succ, List.foldl_cons, hzero, ih]
  simp [rmsLevel, List.foldl_append, henergy]

end Voicers
