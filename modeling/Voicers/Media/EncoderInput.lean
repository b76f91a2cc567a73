import Voicers.Media.Capture
import Voicers.Media.HonestSender

/-! What an engine hands to its encoders, and the numbers of the frames that
come out. A buffer comes from the queue of the microphone, from its last
frame, from silence or from the test tone; the counters of a runtime advance
before the encoder is asked. -/

namespace Voicers

open Lib

/-- The samples of an engine as its codec takes them, and what its test tone
is computed with. -/
structure SampleSource (κ : Codec) where
  arith : SampleArith
  toPcm : List arith.Sample → κ.Pcm
  sin : arith.Sample → arith.Sample
  pi : arith.Sample

variable {κ : Codec} {src : SampleSource κ}

/-- `phases` holds the phase of the tone of each runtime. -/
structure EngineState (κ : Codec) (src : SampleSource κ) where
  status : DaemonStatus
  peers : MediaPeers κ
  phases : String → src.arith.Sample
  capture : CapturePipeline src.arith
  hasLiveCapture : Bool

/-- `shared` is a change of the shared status by another task, and `opened`
tells whether the device opens. -/
inductive EngineEvent (κ : Codec) (src : SampleSource κ)
  | shared (status : DaemonStatus)
  | command (command : MediaCommand)
  | incomingFrame (peerId : String) (frame : MediaFrame)
  | playout (now : Nat) (peerIds : List String)
  | ingest (chunk : CaptureChunk src.arith)
  | setInputGainPercent (percent : UInt8)
  | selectCaptureDevice (opened : Bool)
  | buildNextAudioFrame (peerId : String) (nowMs : UInt64)

/-- The buffer a request hands to the encoder, and the frame it answers. -/
structure EngineOutput (src : SampleSource κ) where
  handed : Option (List src.arith.Sample)
  frame : Option MediaFrame

def EngineOutput.quiet : EngineOutput src := ⟨none, none⟩

section

variable (ρ : SampleArith)

def toneAmplitude : ρ.Sample := ρ.ofRatio 15 100
def toneBaseHz : ρ.Sample := 440

/-- The bytes of an id are too few for their sum to wrap around. -/
def peerToneOffset (peerId : String) : ρ.Sample :=
  let checksum := peerId.toUTF8.toList.foldl (fun acc byte => acc + byte.toUInt32) 0
  ((checksum % 120).toNat : ρ.Sample)

end

/-- The loop of `synthesize_frame` for so many samples, and the phase it ends at. -/
def synthesize (src : SampleSource κ) (phaseStep : src.arith.Sample) :
    Nat → src.arith.Sample → List src.arith.Sample × src.arith.Sample
  | 0, phase => ([], phase)
  | n + 1, phase =>
    let advanced := phase + phaseStep
    let wrapped := if src.arith.le (2 * src.pi) advanced then advanced - 2 * src.pi else advanced
    let r := synthesize src phaseStep n wrapped
    (src.sin phase * toneAmplitude src.arith :: r.1, r.2)

def synthesizeFrame (src : SampleSource κ) (peerId : String) (phase : src.arith.Sample) :
    List src.arith.Sample × src.arith.Sample :=
  let toneHz := toneBaseHz src.arith + peerToneOffset src.arith peerId
  let phaseStep := 2 * src.pi * toneHz / (sampleRateHz.toNat : src.arith.Sample)
  synthesize src phaseStep frameSamples phase

namespace EngineState

def start (src : SampleSource κ) (status : DaemonStatus) (hasLiveCapture : Bool) :
    EngineState κ src where
  status := status
  peers := fun _ => none
  phases := fun _ => 0
  capture := .new src.arith
  hasLiveCapture := hasLiveCapture

/-- The phase of the tone of a peer; it starts with the runtime. -/
def phase (s : EngineState κ src) (peerId : String) : src.arith.Sample :=
  if (s.peers peerId).isSome then s.phases peerId else 0

def withPeers (s : EngineState κ src) (status : DaemonStatus) (peers : MediaPeers κ) :
    EngineState κ src :=
  { s with status := status, peers := peers, phases := s.phase }

/-- The samples of the next frame, with the phase of the tone and the pipeline
they leave. -/
def nextPcm (s : EngineState κ src) (peerId : String) :
    List src.arith.Sample × src.arith.Sample × CapturePipeline src.arith :=
  match s.capture.takeReadyFrame with
  | some (frame, capture) => (frame, s.phase peerId, capture)
  | none =>
    if s.hasLiveCapture then
      (s.capture.lastFrame?.getD (silenceFrame src.arith), s.phase peerId, s.capture)
    else
      let tone := synthesizeFrame src peerId (s.phase peerId)
      (tone.1, tone.2, s.capture)

/-- `BuildNextAudioFrame`. Samples are taken once the peer has its runtime. -/
def build (π : Profile) (s : EngineState κ src) (peerId : String) (nowMs : UInt64) :
    Option (EngineOutput src × EngineState κ src) :=
  match ensurePeerRuntime s.peers peerId with
  | none => some (.quiet, s)
  | some _ =>
    let next := s.nextPcm peerId
    (buildNextAudioFrame π s.status s.peers peerId (src.toPcm next.1) nowMs).map fun r =>
      (⟨some next.1, r.1⟩,
        { s.withPeers r.2.1 r.2.2 with
          phases := Function.update s.phase peerId next.2.1
          capture := next.2.2 })

/-- `none` is a panic, or a chunk whose loop has not ended within the fuel. -/
def step (π : Profile) (fuel : Nat) (s : EngineState κ src) :
    EngineEvent κ src → Option (EngineOutput src × EngineState κ src)
  | .shared status => some (.quiet, { s with status := status })
  | .command command =>
    let r := runMediaCommand s.status s.peers command
    some (.quiet, s.withPeers r.1 r.2)
  | .incomingFrame peerId frame =>
    (handleIncomingFrame π s.status s.peers peerId frame).map fun r =>
      (.quiet, s.withPeers r.2.1 r.2.2)
  | .playout now peerIds =>
    (drivePlayout π now peerIds s.status s.peers).map fun r =>
      (.quiet, s.withPeers r.2.1 r.2.2)
  | .ingest chunk =>
    match s.capture.ingest fuel chunk with
    | .ready capture => some (.quiet, { s with capture := capture })
    | .panicked => none
    | .unfinished => none
  | .setInputGainPercent percent =>
    some (.quiet, { s with capture := s.capture.setInputGain percent })
  | .selectCaptureDevice opened =>
    some (.quiet, if opened then { s with capture := s.capture.reset, hasLiveCapture := true }
      else s)
  | .buildNextAudioFrame peerId nowMs => s.build π peerId nowMs

end EngineState

abbrev EngineTransition (κ : Codec) (src : SampleSource κ) :=
  Transition (EngineState κ src) (EngineEvent κ src) (EngineOutput src)

/-- The frame a transition answers to a request for `peerId`. -/
def producedFrame (peerId : String) (x : EngineTransition κ src) : Option MediaFrame :=
  match x.input with
  | .buildNextAudioFrame q _ => if q = peerId then x.output.frame else none
  | _ => none

def producedFrames (peerId : String) (tr : List (EngineTransition κ src)) : List MediaFrame :=
  tr.filterMap (producedFrame peerId)

/-- A stretch of a run that finds the peer without a runtime and never takes
one from it. -/
structure RuntimeLife (peerId : String) (life : List (EngineTransition κ src)) : Prop where
  created : ∀ x ∈ life.head?, x.before.peers peerId = none
  kept : ∀ x ∈ life, x.input ≠ .command (.disconnectPeer peerId)

/-- Every sequence number a request for the peer takes is below `2 ^ 64 / 960`. -/
def SequenceBelow (peerId : String) (tr : List (EngineTransition κ src)) : Prop :=
  ∀ x ∈ tr, ∀ nowMs, x.input = .buildNextAudioFrame peerId nowMs →
    ∀ runtime, x.before.peers peerId = some runtime →
      runtime.nextSendSequence * frameSamples < u64Range

/-- The frames one runtime has numbered, and what a receiver of either profile
makes of each of them with and without its timestamp. -/
structure SendTimeline (frames : List MediaFrame) : Prop where
  timestamp : ∀ frame ∈ frames, 1 ≤ frame.sequence.toNat ∧
    frame.timestampSamples.toNat = (frame.sequence.toNat - 1) * frameSamples
  increasing : frames.Pairwise fun earlier later => earlier.sequence < later.sequence
  normalized : ∀ frame ∈ frames, ∀ π,
    normalizeTimestampSamples π frame = some ((frame.sequence.toNat - 1) * frameSamples) ∧
    normalizeTimestampSamples π { frame with timestampSamples := 0 } =
      some ((frame.sequence.toNat - 1) * frameSamples)

structure EncoderInput (tr : List (EngineTransition κ src)) : Prop where
  handed : ∀ x ∈ tr, ∀ pcm, x.output.handed = some pcm → pcm.length = 960
  queued : ∀ x ∈ tr, ∀ chunk, x.input = .ingest chunk → x.after.capture.readyFrames.length ≤ 8
  timeline : ∀ peerId pre life post, tr = pre ++ life ++ post → RuntimeLife peerId life →
    SequenceBelow peerId life → SendTimeline (producedFrames peerId life)

theorem synthesize_length (phaseStep : src.arith.Sample) (n : Nat) (phase : src.arith.Sample) :
    (synthesize src phaseStep n phase).1.length = n := by
  induction n generalizing phase with
  | zero => rfl
  | succ n ih => simp only [synthesize, List.length_cons, ih]

namespace CapturePipeline

variable {ρ : SampleArith}

/-- Whole frames only, and no more than the queue may keep. -/
def Bounded (p : CapturePipeline ρ) : Prop :=
  p.Framed ∧ p.readyFrames.length ≤ maxCaptureQueueDepth

theorem bounded_new : (CapturePipeline.new ρ).Bounded := ⟨framed_new, Nat.zero_le _⟩

theorem Bounded.reset {p : CapturePipeline ρ} (h : p.Bounded) : p.reset.Bounded :=
  ⟨p.reset_keeps.framed h.1, Nat.zero_le _⟩

theorem Bounded.takeReadyFrame {p p' : CapturePipeline ρ} {frame : List ρ.Sample} (h : p.Bounded)
    (ht : p.takeReadyFrame = some (frame, p')) : p'.Bounded := by
  refine ⟨(takeReadyFrame_keeps ht).framed h.1, ?_⟩
  unfold CapturePipeline.takeReadyFrame at ht
  split at ht
  · cases ht
  · next hready =>
    obtain ⟨rfl, rfl⟩ := Prod.mk.inj (Option.some.inj ht)
    have hlength := h.2
    rw [hready, List.length_cons] at hlength
    exact Nat.le_of_succ_le hlength

theorem Bounded.ingest {fuel : Nat} {p p' : CapturePipeline ρ} {chunk : CaptureChunk ρ}
    (h : p.Bounded) (hi : p.ingest fuel chunk = .ready p') : p'.Bounded := by
  refine ⟨(ingest_keeps hi).framed h.1, ?_⟩
  unfold CapturePipeline.ingest at hi
  split at hi
  · obtain rfl := Ingested.ready.inj hi
    exact h.2
  · cases hr : rebuildReadyFrames fuel (p.accept chunk) with
    | ready q =>
      simp only [hr] at hi
      obtain rfl := Ingested.ready.inj hi
      simp only [dropOldest, List.length_drop]
      omega
    | panicked => simp [hr] at hi
    | unfinished => simp [hr] at hi

end CapturePipeline

namespace EngineState

variable {π : Profile} {fuel : Nat} {s t : EngineState κ src} {o : EngineOutput src}

/-- Each of the four sources gives a whole frame. -/
theorem nextPcm_framed (h : s.capture.Framed) (peerId : String) :
    (s.nextPcm peerId).1.length = frameSamples := by
  unfold nextPcm
  cases ht : s.capture.takeReadyFrame with
  | some r =>
    obtain ⟨frame, capture⟩ := r
    unfold CapturePipeline.takeReadyFrame at ht
    split at ht
    · cases ht
    · next hready =>
      obtain ⟨rfl, _⟩ := Prod.mk.inj (Option.some.inj ht)
      exact h.2 _ (hready ▸ List.mem_cons_self)
  | none =>
    by_cases hlive : s.hasLiveCapture = true
    · simp only [hlive, if_true, CapturePipeline.lastFrame?, h.1, Option.getD_some]
    · simp only [hlive, if_false, Bool.false_eq_true]
      exact synthesize_length _ _ _

theorem nextPcm_bounded (h : s.capture.Bounded) (peerId : String) :
    (s.nextPcm peerId).2.2.Bounded := by
  unfold nextPcm
  cases ht : s.capture.takeReadyFrame with
  | some r => exact h.takeReadyFrame ht
  | none =>
    by_cases hlive : s.hasLiveCapture = true
    · simpa only [hlive, if_true] using h
    · simpa only [hlive, if_false, Bool.false_eq_true] using h

/-- What a step answers, and the pipeline and the runtimes it leaves. -/
inductive Moves (π : Profile) (fuel : Nat) (s : EngineState κ src) : EngineEvent κ src →
    EngineOutput src → CapturePipeline src.arith → MediaPeers κ → Prop
  | shared (status : DaemonStatus) : Moves π fuel s (.shared status) .quiet s.capture s.peers
  | command (command : MediaCommand) : Moves π fuel s (.command command) .quiet s.capture
      (runMediaCommand s.status s.peers command).2
  | incomingFrame {peerId : String} {frame : MediaFrame} {ack : Option MediaAck}
      {status : DaemonStatus} {peers : MediaPeers κ} :
      handleIncomingFrame π s.status s.peers peerId frame = some (ack, status, peers) →
      Moves π fuel s (.incomingFrame peerId frame) .quiet s.capture peers
  | playout {now : Nat} {peerIds : List String} {pcm : List (String × κ.Pcm)}
      {status : DaemonStatus} {peers : MediaPeers κ} :
      drivePlayout π now peerIds s.status s.peers = some (pcm, status, peers) →
      Moves π fuel s (.playout now peerIds) .quiet s.capture peers
  | ingested {chunk : CaptureChunk src.arith} {capture : CapturePipeline src.arith} :
      s.capture.ingest fuel chunk = .ready capture →
      Moves π fuel s (.ingest chunk) .quiet capture s.peers
  | gained (percent : UInt8) : Moves π fuel s (.setInputGainPercent percent) .quiet
      (s.capture.setInputGain percent) s.peers
  | switched : Moves π fuel s (.selectCaptureDevice true) .quiet s.capture.reset s.peers
  | unswitched : Moves π fuel s (.selectCaptureDevice false) .quiet s.capture s.peers
  | refused (peerId : String) (nowMs : UInt64) :
      Moves π fuel s (.buildNextAudioFrame peerId nowMs) .quiet s.capture s.peers
  | built {peerId : String} {nowMs : UInt64} {frame : Option MediaFrame} {status : DaemonStatus}
      {peers : MediaPeers κ} :
      buildNextAudioFrame π s.status s.peers peerId (src.toPcm (s.nextPcm peerId).1) nowMs =
        some (frame, status, peers) →
      Moves π fuel s (.buildNextAudioFrame peerId nowMs) ⟨some (s.nextPcm peerId).1, frame⟩
        (s.nextPcm peerId).2.2 peers

theorem build_moves {peerId : String} {nowMs : UInt64} (h : s.build π peerId nowMs = some (o, t)) :
    Moves π fuel s (.buildNextAudioFrame peerId nowMs) o t.capture t.peers := by
  cases he : ensurePeerRuntime s.peers peerId with
  | none =>
    simp only [build, he, Option.some.injEq, Prod.mk.injEq] at h
    obtain ⟨rfl, rfl⟩ := h
    exact .refused peerId nowMs
  | some e =>
    simp only [build, he, Option.map_eq_some_iff] at h
    obtain ⟨⟨frame, status, peers⟩, hb, hr⟩ := h
    obtain ⟨rfl, rfl⟩ := Prod.mk.inj hr
    exact .built hb

theorem step_moves {i : EngineEvent κ src} (h : s.step π fuel i = some (o, t)) :
    Moves π fuel s i o t.capture t.peers := by
  cases i with
  | shared status =>
    obtain ⟨rfl, rfl⟩ := Prod.mk.inj (Option.some.inj h)
    exact .shared status
  | command command =>
    obtain ⟨rfl, rfl⟩ := Prod.mk.inj (Option.some.inj h)
    exact .command command
  | incomingFrame peerId frame =>
    obtain ⟨⟨ack, status, peers⟩, hf, hr⟩ := Option.map_eq_some_iff.mp h
    obtain ⟨rfl, rfl⟩ := Prod.mk.inj hr
    exact .incomingFrame hf
  | playout now peerIds =>
    obtain ⟨⟨pcm, status, peers⟩, hd, hr⟩ := Option.map_eq_some_iff.mp h
    obtain ⟨rfl, rfl⟩ := Prod.mk.inj hr
    exact .playout hd
  | ingest chunk =>
    cases hi : s.capture.ingest fuel chunk with
    | ready capture =>
      simp only [step, hi, Option.some.injEq, Prod.mk.injEq] at h
      obtain ⟨rfl, rfl⟩ := h
      exact .ingested hi
    | panicked => simp [step, hi] at h
    | unfinished => simp [step, hi] at h
  | setInputGainPercent percent =>
    obtain ⟨rfl, rfl⟩ := Prod.mk.inj (Option.some.inj h)
    exact .gained percent
  | selectCaptureDevice opened =>
    obtain ⟨rfl, rfl⟩ := Prod.mk.inj (Option.some.inj h)
    cases opened with
    | false => exact .unswitched
    | true => exact .switched
  | buildNextAudioFrame peerId nowMs => exact build_moves h

variable {i : EngineEvent κ src} {capture : CapturePipeline src.arith} {peers : MediaPeers κ}

theorem Moves.bounded (h : Moves π fuel s i o capture peers) (hb : s.capture.Bounded) :
    capture.Bounded := by
  cases h with
  | shared | command | incomingFrame | playout | unswitched | refused => exact hb
  | ingested hi => exact hb.ingest hi
  | gained => exact hb
  | switched => exact hb.reset
  | built => exact nextPcm_bounded hb _

theorem Moves.handed (h : Moves π fuel s i o capture peers) (hf : s.capture.Framed)
    {pcm : List src.arith.Sample} (hp : o.handed = some pcm) : pcm.length = frameSamples := by
  cases h with
  | built => exact Option.some.inj hp ▸ nextPcm_framed hf _
  | _ => cases hp

end EngineState

/-- The frames a peer was sent since its runtime was created, next to the
runtime itself: they count up to its next sequence number. -/
structure SendLife (peerId : String) (frames : List MediaFrame) (peers : MediaPeers κ) : Prop where
  fresh : peers peerId = none → frames = []
  counts : ∀ runtime, peers peerId = some runtime → CountsFrames runtime ∧
    ∀ frame ∈ frames, frame.sequence.toNat < runtime.nextSendSequence
  timestamp : ∀ frame ∈ frames, 1 ≤ frame.sequence.toNat ∧
    frame.timestampSamples.toNat = (frame.sequence.toNat - 1) * frameSamples
  increasing : frames.Pairwise fun earlier later => earlier.sequence < later.sequence

namespace SendLife

variable {peerId q : String} {frames : List MediaFrame} {peers peers' : MediaPeers κ}

theorem created (h : peers peerId = none) : SendLife peerId [] peers where
  fresh := fun _ => rfl
  counts := by
    intro runtime hr
    rw [h] at hr
    cases hr
  timestamp := by simp
  increasing := .nil

theorem append_none (h : SendLife peerId frames peers) :
    SendLife peerId (frames ++ (none : Option MediaFrame).toList) peers := by
  rw [Option.toList_none, List.append_nil]
  exact h

theorem of_counters (h : SendLife peerId frames peers)
    (hc : sendCounters peers' peerId = sendCounters peers peerId) :
    SendLife peerId frames peers' := by
  refine ⟨fun hnone => h.fresh ?_, fun runtime' hr => ?_, h.timestamp, h.increasing⟩
  · simp only [sendCounters, hnone, Option.map_none] at hc
    exact Option.map_eq_none_iff.mp hc.symm
  · simp only [sendCounters, hr, Option.map_some] at hc
    obtain ⟨runtime, hruntime, heq⟩ := Option.map_eq_some_iff.mp hc.symm
    obtain ⟨hs, ht⟩ := Prod.mk.inj heq
    obtain ⟨hcounts, hlt⟩ := h.counts runtime hruntime
    exact ⟨hcounts.congr hs.symm ht.symm, hs ▸ hlt⟩

theorem other (h : SendLife peerId frames peers) (hq : q ≠ peerId)
    (runtime : Option (MediaPeerRuntime κ)) :
    SendLife peerId frames (Function.update peers q runtime) :=
  h.of_counters (by rw [sendCounters, Function.update_of_ne hq.symm, sendCounters])

/-- Looking a runtime up creates it at most, with nothing sent yet. -/
theorem ensure {runtime : MediaPeerRuntime κ} (h : SendLife peerId frames peers)
    (he : ensurePeerRuntime peers q = some (runtime, peers')) : SendLife peerId frames peers' := by
  cases hp : peers q with
  | some rt =>
    simp only [ensurePeerRuntime, hp, Option.some.injEq, Prod.mk.injEq] at he
    exact he.2 ▸ h
  | none =>
    simp only [ensurePeerRuntime, hp, Option.bind_eq_bind, Option.bind_eq_some_iff, Option.pure_def,
      Option.some.injEq, Prod.mk.injEq] at he
    obtain ⟨encoder, _, decoder, _, rfl, rfl⟩ := he
    by_cases hq : q = peerId
    · subst hq
      obtain rfl := h.fresh hp
      refine ⟨fun _ => rfl, fun rt hrt => ?_, by simp, .nil⟩
      rw [Function.update_self] at hrt
      obtain rfl := Option.some.inj hrt
      exact ⟨countsFrames_new decoder encoder, by simp⟩
    · exact h.other hq _

theorem command {state : DaemonStatus} (h : SendLife peerId frames peers) {command : MediaCommand}
    (hkept : command ≠ .disconnectPeer peerId) :
    SendLife peerId frames (runMediaCommand state peers command).2 := by
  cases command with
  | registerPeer q =>
    simp only [runMediaCommand]
    cases he : ensurePeerRuntime peers q with
    | none => exact h
    | some e => exact h.ensure he
  | disconnectPeer q => exact h.other (fun hq => hkept (hq ▸ rfl)) none
  | handleAck q ack => exact h

theorem incoming {π : Profile} {state state' : DaemonStatus} {frame : MediaFrame}
    {ack : Option MediaAck} (h : SendLife peerId frames peers)
    (hf : handleIncomingFrame π state peers q frame = some (ack, state', peers')) :
    SendLife peerId frames peers' := by
  cases he : ensurePeerRuntime peers q with
  | none =>
    simp only [handleIncomingFrame, he, Option.some.injEq, Prod.mk.injEq] at hf
    exact hf.2.2 ▸ h
  | some e =>
    obtain ⟨rt, peers₁⟩ := e
    simp only [handleIncomingFrame, he, Option.bind_eq_bind, Option.bind_eq_some_iff,
      Option.pure_def, Option.some.injEq, Prod.mk.injEq] at hf
    obtain ⟨jitter, _, _, _, rfl⟩ := hf
    have hp : peers₁ q = some rt := by rw [(ensurePeerRuntime_spec he).1, Function.update_self]
    refine (h.ensure he).of_counters (congrFun (sendCounters_update hp ?_ ?_) peerId)
    · rfl
    · rfl

/-- The next number of a runtime that is looked up is the one it had, or the first. -/
theorem below_of_ensure {runtime : MediaPeerRuntime κ}
    (hbelow : ∀ rt, peers q = some rt → rt.nextSendSequence * frameSamples < u64Range)
    (he : ensurePeerRuntime peers q = some (runtime, peers')) :
    runtime.nextSendSequence * frameSamples < u64Range := by
  cases hp : peers q with
  | some rt =>
    simp only [ensurePeerRuntime, hp, Option.some.injEq, Prod.mk.injEq] at he
    exact he.1 ▸ hbelow rt hp
  | none =>
    simp only [ensurePeerRuntime, hp, Option.bind_eq_bind, Option.bind_eq_some_iff, Option.pure_def,
      Option.some.injEq, Prod.mk.injEq] at he
    obtain ⟨encoder, _, decoder, _, rfl, _⟩ := he
    exact show 1 * frameSamples < u64Range by decide

/-- A request counts the runtime on by one, with a frame or without. -/
theorem count {runtime : MediaPeerRuntime κ} {sent : Option MediaFrame} {encoder : κ.Encoder}
    (h : SendLife peerId frames peers) (hp : peers peerId = some runtime)
    (hlt : runtime.nextSendTimestampSamples + frameSamples < u64Range)
    (hsent : ∀ frame, sent = some frame →
      frame.sequence = UInt64.ofNat runtime.nextSendSequence ∧
        frame.timestampSamples = UInt64.ofNat runtime.nextSendTimestampSamples) :
    SendLife peerId (frames ++ sent.toList) (Function.update peers peerId (some { runtime with
      nextSendSequence := runtime.nextSendSequence + 1
      nextSendTimestampSamples := runtime.nextSendTimestampSamples + frameSamples
      encoder := encoder })) := by
  obtain ⟨hcounts, hbefore⟩ := h.counts runtime hp
  have hstamp : ∀ frame ∈ sent.toList, frame.sequence.toNat = runtime.nextSendSequence ∧
      frame.timestampSamples.toNat = (runtime.nextSendSequence - 1) * frameSamples := by
    intro frame hf
    obtain ⟨hs, ht⟩ := hsent frame (Option.mem_toList.mp hf)
    exact hcounts.stamp hs ht
  constructor
  · intro hnone
    rw [Function.update_self] at hnone
    cases hnone
  · intro rt hrt
    rw [Function.update_self] at hrt
    obtain rfl := Option.some.inj hrt
    refine ⟨hcounts.next encoder hlt, fun frame hf => ?_⟩
    rcases List.mem_append.mp hf with hf | hf
    · exact Nat.lt_succ_of_lt (hbefore frame hf)
    · rw [(hstamp frame hf).1]
      exact Nat.lt_succ_self _
  · intro frame hf
    rcases List.mem_append.mp hf with hf | hf
    · exact h.timestamp frame hf
    · obtain ⟨hs, ht⟩ := hstamp frame hf
      exact ⟨hs ▸ hcounts.first, hs ▸ ht⟩
  · refine List.pairwise_append.mpr ⟨h.increasing, ?_, fun earlier he later hl => ?_⟩
    · cases sent with
      | none => exact .nil
      | some frame => exact List.pairwise_singleton _ frame
    · rw [UInt64.lt_iff_toNat_lt, (hstamp later hl).1]
      exact hbefore earlier he

theorem build {π : Profile} {state state' : DaemonStatus} {pcm : κ.Pcm} {nowMs : UInt64}
    {sent : Option MediaFrame} (h : SendLife peerId frames peers)
    (hbelow : ∀ rt, peers peerId = some rt → rt.nextSendSequence * frameSamples < u64Range)
    (hb : buildNextAudioFrame π state peers peerId pcm nowMs = some (sent, state', peers')) :
    SendLife peerId (frames ++ sent.toList) peers' := by
  rcases buildNextAudioFrame_cases hb with
    ⟨_, rfl, rfl⟩ | ⟨rt, peers₁, sequence, timestamp, he, hs, ht, rfl, hsent⟩
  · rw [Option.toList_none, List.append_nil]
    exact h
  · have hp : peers₁ peerId = some rt := by
      rw [(ensurePeerRuntime_spec he).1, Function.update_self]
    have hlife := h.ensure he
    have hcounts := (hlife.counts rt hp).1
    have hsequence := below_of_ensure hbelow he
    have hfirst := hcounts.first
    have htimestamp := hcounts.timestamp
    have hlt : rt.nextSendTimestampSamples + frameSamples < u64Range := by
      simp only [frameSamples] at hsequence htimestamp ⊢
      omega
    have hnext : rt.nextSendSequence + 1 < u64Range := by
      simp only [frameSamples] at hsequence
      omega
    obtain rfl := Option.some.inj ((Profile.u64_of_lt hnext).symm.trans hs)
    obtain rfl := Option.some.inj ((Profile.u64_of_lt hlt).symm.trans ht)
    exact hlife.count hp hlt hsent

/-- A request for another peer. -/
theorem build_other {π : Profile} {state state' : DaemonStatus} {pcm : κ.Pcm} {nowMs : UInt64}
    {sent : Option MediaFrame} (h : SendLife peerId frames peers) (hq : q ≠ peerId)
    (hb : buildNextAudioFrame π state peers q pcm nowMs = some (sent, state', peers')) :
    SendLife peerId frames peers' := by
  rcases buildNextAudioFrame_cases hb with ⟨_, rfl, rfl⟩ | ⟨rt, peers₁, _, _, he, _, _, rfl, _⟩
  · exact h
  · exact (h.ensure he).other hq _

theorem step {π : Profile} {fuel : Nat} {x : EngineTransition κ src}
    (h : SendLife peerId frames x.before.peers)
    (hs : x.before.step π fuel x.input = some (x.output, x.after))
    (hkept : x.input ≠ .command (.disconnectPeer peerId))
    (hbelow : ∀ nowMs, x.input = .buildNextAudioFrame peerId nowMs →
      ∀ rt, x.before.peers peerId = some rt → rt.nextSendSequence * frameSamples < u64Range) :
    SendLife peerId (frames ++ (producedFrame peerId x).toList) x.after.peers := by
  obtain ⟨s, i, o, t⟩ := x
  have hmove := EngineState.step_moves hs
  dsimp only at h hkept hbelow hmove ⊢
  generalize t.peers = peers at hmove ⊢
  generalize t.capture = capture at hmove
  cases hmove with
  | shared | ingested | gained | switched | unswitched => exact h.append_none
  | command command =>
    exact (h.command fun hc => hkept (congrArg EngineEvent.command hc)).append_none
  | incomingFrame hf => exact (h.incoming hf).append_none
  | playout hd =>
    exact (h.of_counters (congrFun (drivePlayout_counters hd) peerId)).append_none
  | refused q =>
    simp only [producedFrame, EngineOutput.quiet, ite_self]
    exact h.append_none
  | @built q nowMs frame status peers hb =>
    by_cases hq : q = peerId
    · subst hq
      simp only [producedFrame, if_true]
      exact h.build (hbelow nowMs rfl) hb
    · simp only [producedFrame, hq, if_false]
      exact (h.build_other hq hb).append_none

/-- A whole stretch, from the state before the peer has its runtime. -/
theorem run {π : Profile} {fuel : Nat} {m t : EngineState κ src}
    {life : List (EngineTransition κ src)} (h : Trace (EngineState.step π fuel) m life t)
    (hnone : m.peers peerId = none)
    (hkept : ∀ x ∈ life, x.input ≠ .command (.disconnectPeer peerId))
    (hbelow : SequenceBelow peerId life) :
    SendLife peerId (producedFrames peerId life) t.peers := by
  have hall := h.along (I := fun tr s => SendLife peerId (producedFrames peerId tr) s.peers)
    (Q := fun _ x => x ∈ life) (R := fun _ _ => True) (SendLife.created hnone) ?_
    (fun _ _ _ _ _ => trivial) (along_iff_mem.mpr fun _ hx => hx)
  · exact hall.1
  · intro tr x hs hx hlife
    have hstep := hlife.step hs (hkept x hx) (hbelow x hx)
    rw [producedFrames, List.filterMap_append]
    cases hframe : producedFrame peerId x with
    | none => simpa [hframe, producedFrames] using hstep
    | some frame => simpa [hframe, producedFrames] using hstep

end SendLife

/-- Each frame claims the slot its number stands for, so its timestamp can be lost. -/
theorem SendLife.timeline {peerId : String} {frames : List MediaFrame} {peers : MediaPeers κ}
    (h : SendLife peerId frames peers) : SendTimeline frames := by
  refine ⟨h.timestamp, h.increasing, fun frame hf π => ?_⟩
  obtain ⟨_, hts⟩ := h.timestamp frame hf
  have hlt : (frame.sequence.toNat - 1) * frameSamples < u64Range :=
    hts ▸ frame.timestampSamples.toNat_lt
  have hkept : frame.claimedTimestamp = (frame.sequence.toNat - 1) * frameSamples := by
    unfold MediaFrame.claimedTimestamp
    split_ifs
    · exact hts
    · rfl
  have hlost : { frame with timestampSamples := 0 }.claimedTimestamp =
      (frame.sequence.toNat - 1) * frameSamples := by
    simp [MediaFrame.claimedTimestamp]
  constructor
  · rw [normalizeTimestampSamples_of_lt π (hkept ▸ hlt), hkept]
  · rw [normalizeTimestampSamples_of_lt π (hlost ▸ hlt), hlost]

theorem encoder_input {π : Profile} {fuel : Nat} {status : DaemonStatus} {hasLiveCapture : Bool}
    {tr : List (EngineTransition κ src)} {s : EngineState κ src}
    (h : Trace (EngineState.step π fuel) (.start src status hasLiveCapture) tr s) :
    EncoderInput tr := by
  have hkeep : ∀ (s : EngineState κ src) i o t, s.capture.Bounded → s.step π fuel i = some (o, t) →
      t.capture.Bounded := fun _ _ _ _ hb hs => (EngineState.step_moves hs).bounded hb
  have hstart : (EngineState.start src status hasLiveCapture).capture.Bounded :=
    CapturePipeline.bounded_new
  constructor
  · intro x hx pcm hp
    obtain ⟨hb, hs⟩ := h.of_mem hkeep hstart hx
    exact (EngineState.step_moves hs).handed hb.1 hp
  · intro x hx _ _
    obtain ⟨hb, hs⟩ := h.of_mem hkeep hstart hx
    exact (hkeep _ _ _ _ hb hs).2
  · rintro peerId pre life post rfl hlife hbelow
    rw [List.append_assoc] at h
    obtain ⟨m, _, hrest⟩ := Trace.append_iff.mp h
    obtain ⟨t, hmid, _⟩ := Trace.append_iff.mp hrest
    cases hmid with
    | nil => exact ⟨by simp [producedFrames], .nil, by simp [producedFrames]⟩
    | cons hs ht =>
      have hnone := hlife.created _ rfl
      exact (SendLife.run (.cons hs ht) hnone hlife.kept hbelow).timeline

/-- Every other frame cannot be encoded. -/
def flakyCodec : Codec where
  Pcm := List binary32.Sample
  Encoder := Nat
  Decoder := Unit
  buildEncoder := some 0
  buildDecoder := some ()
  encodeFloat calls _ := (if calls % 2 = 0 then some [7] else none, calls + 1)
  decodePacket _ _ _ := (none, ())
  decodePacketLoss _ := (none, ())
  applyOutputGain pcm _ := pcm

/-- A tone of constant amplitude will do, as the device opens. -/
def flakySource : SampleSource flakyCodec where
  arith := binary32
  toPcm := id
  sin := fun _ => 1
  pi := 3

def flakyInputs : List (EngineEvent flakyCodec flakySource) :=
  [.selectCaptureDevice true, .setInputGainPercent 50, .ingest ⟨48000, []⟩,
    .buildNextAudioFrame "bob" 0, .buildNextAudioFrame "bob" 20, .buildNextAudioFrame "carol" 20,
    .buildNextAudioFrame "bob" 40]

/-- The second of three requests gives no frame, and the third goes on counting. -/
theorem encoder_input_flaky : ∃ tr s,
    Trace (EngineState.step .dev 100) (.start flakySource (.fresh "alice") false) tr s ∧
    (producedFrames "bob" tr).map (fun frame => (frame.sequence, frame.timestampSamples)) =
      [(1, 0), (3, 1920)] ∧
    EncoderInput tr ∧ SendTimeline (producedFrames "bob" tr) := by
  have hrun : (execute (EngineState.step .dev 100) (.start flakySource (.fresh "alice") false)
      flakyInputs).map (fun r =>
        ((producedFrames "bob" r.1).map fun frame => (frame.sequence, frame.timestampSamples),
          r.1.head?.all fun x => (x.before.peers "bob").isNone,
          r.1.all fun x => (x.before.peers "bob").all fun runtime =>
            runtime.nextSendSequence * frameSamples < u64Range)) =
      some ([(1, 0), (3, 1920)], true, true) := by decide +kernel
  obtain ⟨⟨tr, s⟩, hexec, hr⟩ := Option.map_eq_some_iff.mp hrun
  obtain ⟨hframes, hr⟩ := Prod.mk.inj hr
  obtain ⟨hcreated, hbelow⟩ := Prod.mk.inj hr
  have hinputs := execute_inputs hexec
  have htrace := execute_trace hexec
  refine ⟨tr, s, htrace, hframes, encoder_input htrace, ?_⟩
  refine (encoder_input htrace).timeline "bob" [] tr [] (by simp) ⟨fun x hx => ?_, fun x hx => ?_⟩
    fun x hx _ _ runtime hruntime => ?_
  · rw [Option.mem_def.mp hx] at hcreated
    simpa using hcreated
  · have hmem : x.input ∈ flakyInputs := hinputs ▸ List.mem_map_of_mem hx
    intro heq
    simp [heq, flakyInputs] at hmem
  · have hx := List.all_eq_true.mp hbelow x hx
    simpa [hruntime] using hx

end Voicers
