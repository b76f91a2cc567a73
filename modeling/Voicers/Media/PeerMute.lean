import Voicers.Lib.TwoRuns
import Voicers.Media.EngineStep
import Voicers.Media.JitterBlind
import Voicers.Media.Receive

/-! Muting a peer. The flag stands in the row of the peer and playback does not
read it: what a muted peer sends is buffered and played like anything else.
Two runs of the engine whose frames differ under mute are compared up to the
payloads of the packets that came under mute, and up to the whole receive
side of the peer once such a packet has been decoded. -/

namespace Voicers

open Lib

variable {κ : Codec}

/-- `media` is `none` once the engine has panicked. -/
structure PlaybackState (κ : Codec) where
  status : DaemonStatus
  media : Option (MediaPeers κ)

/-- `shared` is the shared status as another task has left it. -/
inductive PlaybackEvent (κ : Codec)
  | shared (status : DaemonStatus)
  | command (command : MediaCommand)
  | incomingFrame (peerId : String) (frame : MediaFrame)
  | buildNextAudioFrame (peerId : String) (pcm : κ.Pcm) (nowMs : UInt64)
  | playout (now : Nat) (peerIds : List String)

abbrev PlaybackCall (κ : Codec) :=
  DaemonStatus → MediaPeers κ → Option (List (String × κ.Pcm) × DaemonStatus × MediaPeers κ)

namespace PlaybackState

def start (status : DaemonStatus) : PlaybackState κ where
  status := status
  media := some fun _ => none

def run (s : PlaybackState κ) (call : PlaybackCall κ) :
    List (String × κ.Pcm) × PlaybackState κ :=
  match s.media with
  | none => ([], s)
  | some peers =>
    match call s.status peers with
    | none => ([], { s with media := none })
    | some r => (r.1, ⟨r.2.1, some r.2.2⟩)

/-- The samples are those pushed to the outputs of the peers. A tick goes over
the keys of a map, which do not repeat. -/
def step (π : Profile) (s : PlaybackState κ) :
    PlaybackEvent κ → Option (List (String × κ.Pcm) × PlaybackState κ)
  | .shared status => some ([], { s with status := status })
  | .command command => some (s.run fun status peers =>
      let r := runMediaCommand status peers command
      some ([], r.1, r.2))
  | .incomingFrame peerId frame => some (s.run fun status peers =>
      (handleIncomingFrame π status peers peerId frame).map fun r => ([], r.2))
  | .buildNextAudioFrame peerId pcm nowMs => some (s.run fun status peers =>
      (buildNextAudioFrame π status peers peerId pcm nowMs).map fun r => ([], r.2))
  | .playout now peerIds =>
    if peerIds.Nodup then some (s.run fun status peers => drivePlayout π now peerIds status peers)
    else none

def runtime? (s : PlaybackState κ) (peerId : String) : Option (MediaPeerRuntime κ) :=
  s.media.bind fun peers => peers peerId

def muted (s : PlaybackState κ) (peerId : String) : Bool :=
  (s.status.peer? peerId).any PeerSummary.muted

end PlaybackState

abbrev PlaybackTransition (κ : Codec) :=
  Transition (PlaybackState κ) (PlaybackEvent κ) (List (String × κ.Pcm))

def pushed (peerId : String) (pcm : List (String × κ.Pcm)) : List κ.Pcm :=
  (pcm.filter fun s => s.1 = peerId).map Prod.snd

/-- What each step of a run pushes to the output of the peer while it is muted. -/
def mutedPcm (peerId : String) (tr : List (PlaybackTransition κ)) : List (List κ.Pcm) :=
  tr.map fun x => if x.before.muted peerId then pushed peerId x.output else []

/-- What the controls of the user say about each listed peer. -/
def DaemonStatus.controls (state : DaemonStatus) : List (String × Bool × Nat) :=
  state.peers.map fun peer => (peer.peerId, peer.muted, peer.outputVolumePercent)

/-- The same input in two runs; a frame of the peer may have another payload
while the peer is muted, and what other tasks write may differ in all but the
controls. -/
inductive AlikeInput (peerId : String) (x y : PlaybackTransition κ) : Prop
  | same (h : x.input = y.input)
  | mutedFrame (frame : MediaFrame) (payload : List UInt8) (hx : x.input = .incomingFrame peerId frame)
      (hy : y.input = .incomingFrame peerId { frame with payload := payload })
      (hmuted : x.before.muted peerId = true) (hmuted' : y.before.muted peerId = true)
  | shared (status status' : DaemonStatus) (hx : x.input = .shared status)
      (hy : y.input = .shared status') (hcontrols : status.controls = status'.controls)

/-- The slots of the peer's buffer whose packets came under mute, and whether
one of them has been decoded since the peer has its decoder. -/
structure MuteTaint where
  marked : Nat → Bool
  lost : Bool

def MuteTaint.clean : MuteTaint where
  marked := fun _ => false
  lost := false

/-- The burst of a tick decodes a marked packet. -/
def playsMarked (π : Profile) (marked : Nat → Bool) (now : Nat) :
    Nat → MediaPeerRuntime κ → Bool
  | 0, _ => false
  | fuel + 1, runtime =>
    match runtime.jitter.nextPlayoutDecision π now with
    | none => false
    | some (decision, jitter) =>
      decision.takes marked jitter ||
        let decoded := decodeDecision runtime.decoder decision
        decoded.1.isSome && playsMarked π marked now fuel
          { runtime with
            jitter := jitter
            decoder := decoded.2
            decodedFrames := runtime.decodedFrames + 1 }

def marksAfter (π : Profile) (marked : Nat → Bool) (jitter : JitterBuffer) (frame : MediaFrame)
    (muted : Bool) : Nat → Bool :=
  match frame.frameKind, normalizeTimestampSamples π frame with
  | .audioOpus, some timestampSamples => jitter.markSlot marked timestampSamples muted
  | _, _ => marked

/-- What a frame of the peer does to the taint. -/
def MuteTaint.receive (π : Profile) (g : MuteTaint) (jitter : JitterBuffer) (frame : MediaFrame)
    (muted : Bool) : MuteTaint :=
  if g.lost = false then { g with marked := marksAfter π g.marked jitter frame muted } else g

def taintAfter (π : Profile) (peerId : String) (g : MuteTaint) (x : PlaybackTransition κ) :
    MuteTaint :=
  match x.input with
  | .command (.disconnectPeer peer) => if peer = peerId then { g with lost := false } else g
  | .incomingFrame peer frame =>
    if peer = peerId then
      g.receive π (((x.before.runtime? peerId).map MediaPeerRuntime.jitter).getD .new) frame
        (x.before.muted peerId)
    else g
  | .playout now peerIds =>
    let plays := (x.before.runtime? peerId).any (playsMarked π g.marked now maxPlayoutBurstFrames)
    { g with lost := g.lost || decide (peerId ∈ peerIds) && plays }
  | _ => g

def PlaybackEvent.tick? : PlaybackEvent κ → Option (Nat × List String)
  | .playout now peerIds => some (now, peerIds)
  | _ => none

/-- A tick that decodes a packet from under mute comes while the peer is not
muted. After that the decoder depends on it: until the peer disconnects, a tick
under mute finds nothing to play, and none panics on the peer's buffer. -/
def QuietTick (π : Profile) (peerId : String) (g : MuteTaint) (x : PlaybackTransition κ) : Prop :=
  ∀ tick ∈ x.input.tick?, peerId ∈ tick.2 → ∀ runtime ∈ x.before.runtime? peerId,
    g.lost = true ∨ playsMarked π g.marked tick.1 maxPlayoutBurstFrames runtime = true →
      (playoutBurst π (x.before.status.peerOutputGain peerId) tick.1 maxPlayoutBurstFrames
        runtime).isSome = true ∧
      (x.before.muted peerId = true → g.lost = true ∧
        (runtime.jitter.nextPlayoutDecision π tick.1).map Prod.fst = some .hold)

instance (π : Profile) (peerId : String) (g : MuteTaint) (x : PlaybackTransition κ) :
    Decidable (QuietTick π peerId g x) :=
  inferInstanceAs (Decidable (∀ tick ∈ x.input.tick?, peerId ∈ tick.2 →
    ∀ runtime ∈ x.before.runtime? peerId, _ → _))

section

variable {state state' : DaemonStatus} {peerId : String}

theorem controls_updatePeerMedia (state : DaemonStatus) (peerId : String)
    (update : PeerMediaState → PeerMediaState) :
    (state.updatePeerMedia peerId update).controls = state.controls :=
  map_updateFirst fun _ _ => rfl

theorem peer?_controls (h : state.controls = state'.controls) :
    (state.peer? peerId).map (fun peer => (peer.muted, peer.outputVolumePercent)) =
      (state'.peer? peerId).map fun peer => (peer.muted, peer.outputVolumePercent) := by
  have hfind : ∀ s : DaemonStatus,
      (s.peer? peerId).map (fun peer => (peer.muted, peer.outputVolumePercent)) =
        (s.controls.find? fun control => control.1 = peerId).map Prod.snd := by
    intro s
    simp only [DaemonStatus.controls, List.find?_map, Option.map_map, DaemonStatus.peer?]
    rfl
  rw [hfind, hfind, h]

theorem peerOutputGain_controls (h : state.controls = state'.controls) :
    state.peerOutputGain peerId = state'.peerOutputGain peerId := by
  have hgain : ∀ s : DaemonStatus, s.peerOutputGain peerId =
      ((s.peer? peerId).map fun peer => (peer.muted, peer.outputVolumePercent)).elim 100
        fun control => min control.2 200 := by
    intro s
    unfold DaemonStatus.peerOutputGain
    cases s.peer? peerId with
    | none => rfl
    | some peer => rfl
  rw [hgain, hgain, peer?_controls h]

theorem muted_controls {s t : PlaybackState κ} (h : s.status.controls = t.status.controls)
    (peerId : String) : s.muted peerId = t.muted peerId := by
  have hmuted : ∀ u : PlaybackState κ, u.muted peerId =
      ((u.status.peer? peerId).map fun peer => (peer.muted, peer.outputVolumePercent)).any
        Prod.fst := by
    intro u
    unfold PlaybackState.muted
    cases u.status.peer? peerId with
    | none => rfl
    | some peer => rfl
  rw [hmuted, hmuted, peer?_controls h]

end

/-- The engines of two runs: the peers are the same, but for one whose runtimes
are related. -/
structure PeersAlike (R : MediaPeerRuntime κ → MediaPeerRuntime κ → Prop) (peerId : String)
    (peers peers' : MediaPeers κ) : Prop where
  other : ∀ q, q ≠ peerId → peers q = peers' q
  own : Option.Rel R (peers peerId) (peers' peerId)

section

variable {R R' : MediaPeerRuntime κ → MediaPeerRuntime κ → Prop} {peerId q : String}
  {peers peers' : MediaPeers κ}

theorem PeersAlike.setOther (h : PeersAlike R peerId peers peers') (hne : q ≠ peerId)
    (runtime : Option (MediaPeerRuntime κ)) :
    PeersAlike R peerId (Function.update peers q runtime) (Function.update peers' q runtime) := by
  refine ⟨fun r hr => ?_, ?_⟩
  · by_cases hrq : r = q
    · rw [hrq, Function.update_self, Function.update_self]
    · rw [Function.update_of_ne hrq, Function.update_of_ne hrq, h.other r hr]
  · rw [Function.update_of_ne hne.symm, Function.update_of_ne hne.symm]
    exact h.own

theorem PeersAlike.setOwn (h : PeersAlike R peerId peers peers')
    {runtime runtime' : Option (MediaPeerRuntime κ)} (hown : Option.Rel R' runtime runtime') :
    PeersAlike R' peerId (Function.update peers peerId runtime)
      (Function.update peers' peerId runtime') := by
  refine ⟨fun r hr => ?_, ?_⟩
  · rw [Function.update_of_ne hr, Function.update_of_ne hr, h.other r hr]
  · rw [Function.update_self, Function.update_self]
    exact hown

theorem PeersAlike.absent (h : PeersAlike R peerId peers peers') (hnone : peers peerId = none) :
    PeersAlike R' peerId peers peers' := by
  refine ⟨h.other, ?_⟩
  rcases rel_cases h.own with ⟨hp, hp'⟩ | ⟨runtime, _, hp, _, _⟩
  · rw [hp, hp']
    exact .none
  · rw [hnone] at hp
    cases hp

/-- A peer without a runtime gets the same one in both runs. -/
theorem PeersAlike.ensure (h : PeersAlike R peerId peers peers')
    (hnew : ∀ runtime : MediaPeerRuntime κ, runtime.jitter = .new → R runtime runtime) (q : String) :
    Option.Rel (fun r r' => PeersAlike R peerId r.2 r'.2 ∧ (q ≠ peerId → r.1 = r'.1) ∧
        (q = peerId → R r.1 r'.1))
      (ensurePeerRuntime peers q) (ensurePeerRuntime peers' q) := by
  have hbuild : peers q = none → peers' q = none →
      Option.Rel (fun r r' => PeersAlike R peerId r.2 r'.2 ∧ (q ≠ peerId → r.1 = r'.1) ∧
          (q = peerId → R r.1 r'.1))
        (ensurePeerRuntime peers q) (ensurePeerRuntime peers' q) := by
    intro hp hp'
    cases hencoder : κ.buildEncoder with
    | none => simp [ensurePeerRuntime, hp, hp', hencoder]
    | some encoder =>
      cases hdecoder : κ.buildDecoder with
      | none => simp [ensurePeerRuntime, hp, hp', hencoder, hdecoder]
      | some decoder =>
        simp only [ensurePeerRuntime, hp, hp', hencoder, hdecoder, Option.bind_eq_bind,
          Option.bind_some, Option.pure_def]
        refine .some ⟨?_, fun _ => rfl, fun _ => hnew _ rfl⟩
        by_cases hq : q = peerId
        · subst hq
          exact h.setOwn (.some (hnew _ rfl))
        · exact h.setOther hq _
  by_cases hq : q = peerId
  · subst hq
    rcases rel_cases h.own with ⟨hp, hp'⟩ | ⟨runtime, runtime', hp, hp', hr⟩
    · exact hbuild hp hp'
    · simp only [ensurePeerRuntime, hp, hp']
      exact .some ⟨h, fun hne => absurd rfl hne, fun _ => hr⟩
  · have hsame := h.other q hq
    cases hp : peers q with
    | none => exact hbuild hp (hsame ▸ hp)
    | some runtime =>
      simp only [ensurePeerRuntime, hp, hsame ▸ hp]
      exact .some ⟨h, fun _ => rfl, fun he => absurd he hq⟩

end

/-- The runtimes send the same; unless the receive side is lost, they also
decode the same and buffer the same slots. -/
structure RuntimeAlike (g : MuteTaint) (a b : MediaPeerRuntime κ) : Prop where
  sequence : a.nextSendSequence = b.nextSendSequence
  timestamp : a.nextSendTimestampSamples = b.nextSendTimestampSamples
  encoder : a.encoder = b.encoder
  left : a.jitter.WellFormed
  right : b.jitter.WellFormed
  decoder : g.lost = false → a.decoder = b.decoder
  jitter : g.lost = false → a.jitter.Alike g.marked b.jitter

section

variable {g g' : MuteTaint} {a b : MediaPeerRuntime κ} {π : Profile} {peerId q : String}
  {peers peers' : MediaPeers κ} {status status' : DaemonStatus}

theorem RuntimeAlike.refl_new (g : MuteTaint) {runtime : MediaPeerRuntime κ}
    (h : runtime.jitter = .new) : RuntimeAlike g runtime runtime where
  sequence := rfl
  timestamp := rfl
  encoder := rfl
  left := h ▸ JitterBuffer.wellFormed_new
  right := h ▸ JitterBuffer.wellFormed_new
  decoder := fun _ => rfl
  jitter := fun _ => .refl (h ▸ JitterBuffer.wellFormed_new)

theorem command_alike (hcontrols : status.controls = status'.controls)
    (h : PeersAlike (RuntimeAlike g) peerId peers peers') (command : MediaCommand) :
    (runMediaCommand status peers command).1.controls =
        (runMediaCommand status' peers' command).1.controls ∧
      PeersAlike (RuntimeAlike g) peerId (runMediaCommand status peers command).2
        (runMediaCommand status' peers' command).2 := by
  cases command with
  | registerPeer q =>
    have hensure := h.ensure (fun _ hnew => .refl_new g hnew) q
    simp only [runMediaCommand]
    rcases rel_cases hensure with ⟨he, he'⟩ | ⟨r, r', he, he', hr, _⟩
    · rw [he, he']
      exact ⟨hcontrols, h⟩
    · rw [he, he']
      simp only [controls_updatePeerMedia]
      exact ⟨hcontrols, hr⟩
  | disconnectPeer q =>
    simp only [runMediaCommand, controls_updatePeerMedia]
    refine ⟨hcontrols, ?_⟩
    by_cases hq : q = peerId
    · subst hq
      exact h.setOwn .none
    · exact h.setOther hq none
  | handleAck q ack =>
    simp only [runMediaCommand, controls_updatePeerMedia]
    exact ⟨hcontrols, h⟩

theorem build_alike (hcontrols : status.controls = status'.controls)
    (h : PeersAlike (RuntimeAlike g) peerId peers peers') (q : String) (pcm : κ.Pcm)
    (nowMs : UInt64) :
    Option.Rel (fun r r' => r.2.1.controls = r'.2.1.controls ∧
        PeersAlike (RuntimeAlike g) peerId r.2.2 r'.2.2)
      (buildNextAudioFrame π status peers q pcm nowMs)
      (buildNextAudioFrame π status' peers' q pcm nowMs) := by
  unfold buildNextAudioFrame
  have hensure := h.ensure (fun _ hnew => .refl_new g hnew) q
  rcases rel_cases hensure with ⟨he, he'⟩ | ⟨r, r', he, he', hr, hother, hown⟩
  · rw [he, he']
    exact .some ⟨hcontrols, h⟩
  · obtain ⟨runtime, peers₁⟩ := r
    obtain ⟨runtime', peers₁'⟩ := r'
    have hsend : runtime.nextSendSequence = runtime'.nextSendSequence ∧
        runtime.nextSendTimestampSamples = runtime'.nextSendTimestampSamples ∧
        runtime.encoder = runtime'.encoder := by
      by_cases hq : q = peerId
      · exact ⟨(hown hq).sequence, (hown hq).timestamp, (hown hq).encoder⟩
      · obtain rfl : runtime = runtime' := hother hq
        exact ⟨rfl, rfl, rfl⟩
    have hset : ∀ seq ts enc, PeersAlike (RuntimeAlike g) peerId
        (Function.update peers₁ q (some { runtime with
          nextSendSequence := seq, nextSendTimestampSamples := ts, encoder := enc }))
        (Function.update peers₁' q (some { runtime' with
          nextSendSequence := seq, nextSendTimestampSamples := ts, encoder := enc })) := by
      intro seq ts enc
      by_cases hq : q = peerId
      · subst hq
        have hr' := hown rfl
        exact hr.setOwn (.some ⟨rfl, rfl, rfl, hr'.left, hr'.right, hr'.decoder, hr'.jitter⟩)
      · obtain rfl : runtime = runtime' := hother hq
        exact hr.setOther hq _
    rw [he, he']
    simp only [hsend.1, hsend.2.1, hsend.2.2]
    cases π.u64 (runtime'.nextSendSequence + 1) with
    | none => exact .none
    | some seq =>
      cases π.u64 (runtime'.nextSendTimestampSamples + frameSamples) with
      | none => exact .none
      | some ts =>
        simp only [Option.bind_eq_bind, Option.bind_some]
        cases (κ.encodeFloat runtime'.encoder pcm).1 with
        | none => exact .some ⟨hcontrols, hset _ _ _⟩
        | some payload =>
          refine .some ⟨?_, hset _ _ _⟩
          simp only [controls_updatePeerMedia]
          exact hcontrols

theorem receive_alike {c d : JitterBuffer} {marked : Nat → Bool} {lost : Prop} {frame : MediaFrame}
    {payload : List UInt8} {muted : Bool} (hc : c.WellFormed) (hd : d.WellFormed)
    (halike : ¬ lost → c.Alike marked d) (hsame : muted = true ∨ payload = frame.payload) :
    Option.Rel (fun c' d' => c'.WellFormed ∧ d'.WellFormed ∧
        (¬ lost → c'.Alike (marksAfter π marked c frame muted) d'))
      (c.receive π frame) (d.receive π { frame with payload := payload }) := by
  have hclaimed : normalizeTimestampSamples π { frame with payload := payload } =
      normalizeTimestampSamples π frame := rfl
  unfold JitterBuffer.receive marksAfter
  simp only [hclaimed]
  cases frame.frameKind with
  | probe => exact .some ⟨hc, hd, halike⟩
  | audioOpus =>
    cases normalizeTimestampSamples π frame with
    | none => exact .none
    | some timestampSamples =>
      refine .some ⟨hc.insert _, hd.insert _, fun hnot => ?_⟩
      exact (halike hnot).insert (p := ⟨timestampSamples, frame.payload⟩) rfl
        (hsame.imp_right fun h => by rw [h])

theorem ensure_jitter {runtime : MediaPeerRuntime κ} {peers₁ : MediaPeers κ}
    (h : ensurePeerRuntime peers q = some (runtime, peers₁)) :
    ((peers q).map MediaPeerRuntime.jitter).getD .new = runtime.jitter := by
  rcases (ensurePeerRuntime_spec h).2 with hp | hn
  · rw [hp]
    rfl
  · cases hp : peers q with
    | none => exact hn.symm
    | some existing =>
      simp only [ensurePeerRuntime, hp, Option.some.injEq, Prod.mk.injEq] at h
      rw [← h.1]
      rfl

theorem ensure_eq_none (h : ensurePeerRuntime peers q = none) : peers q = none := by
  cases hp : peers q with
  | none => rfl
  | some existing => simp [ensurePeerRuntime, hp] at h

theorem ownFrame_alike (hcontrols : status.controls = status'.controls)
    (h : PeersAlike (RuntimeAlike g) peerId peers peers') {frame : MediaFrame}
    {payload : List UInt8} {muted : Bool} (hsame : muted = true ∨ payload = frame.payload)
    (hg : g' = g.receive π (((peers peerId).map MediaPeerRuntime.jitter).getD .new) frame muted) :
    Option.Rel (fun r r' => r.2.1.controls = r'.2.1.controls ∧
        PeersAlike (RuntimeAlike g') peerId r.2.2 r'.2.2)
      (handleIncomingFrame π status peers peerId frame)
      (handleIncomingFrame π status' peers' peerId { frame with payload := payload }) := by
  unfold handleIncomingFrame
  have hensure := h.ensure (fun _ hnew => .refl_new g hnew) peerId
  rcases rel_cases hensure with ⟨he, he'⟩ | ⟨r, r', he, he', hr, _, hown⟩
  · rw [he, he']
    exact .some ⟨hcontrols, h.absent (ensure_eq_none he)⟩
  · obtain ⟨runtime, peers₁⟩ := r
    obtain ⟨runtime', peers₁'⟩ := r'
    rw [he, he']
    rw [ensure_jitter he] at hg
    have halike := hown rfl
    have hjitter : ¬ g.lost = true → runtime.jitter.Alike g.marked runtime'.jitter :=
      fun hnot => halike.jitter (by simpa using hnot)
    refine rel_bind (receive_alike halike.left halike.right hjitter hsame) ?_
    rintro c d ⟨hc, hd, hslots⟩
    refine .some ⟨?_, ?_⟩
    · simp only [controls_updatePeerMedia]
      exact hcontrols
    · refine hr.setOwn (.some ⟨halike.sequence, halike.timestamp, halike.encoder, hc, hd, ?_, ?_⟩)
      · intro hlost
        refine halike.decoder ?_
        by_contra hg'
        simp [hg, MuteTaint.receive, hg'] at hlost
      · intro hlost
        have hkept : g.lost = false := by
          by_contra hg'
          simp [hg, MuteTaint.receive, hg'] at hlost
        have hmarks : g'.marked = marksAfter π g.marked runtime.jitter frame muted := by
          simp [hg, MuteTaint.receive, hkept]
        rw [hmarks]
        exact hslots (by simp [hkept])

theorem otherFrame_alike (hcontrols : status.controls = status'.controls)
    (h : PeersAlike (RuntimeAlike g) peerId peers peers') (hne : q ≠ peerId) (frame : MediaFrame) :
    Option.Rel (fun r r' => r.2.1.controls = r'.2.1.controls ∧
        PeersAlike (RuntimeAlike g) peerId r.2.2 r'.2.2)
      (handleIncomingFrame π status peers q frame)
      (handleIncomingFrame π status' peers' q frame) := by
  unfold handleIncomingFrame
  have hensure := h.ensure (fun _ hnew => .refl_new g hnew) q
  rcases rel_cases hensure with ⟨he, he'⟩ | ⟨r, r', he, he', hr, hother, _⟩
  · rw [he, he']
    exact .some ⟨hcontrols, h⟩
  · obtain ⟨runtime, peers₁⟩ := r
    obtain ⟨runtime', peers₁'⟩ := r'
    obtain rfl : runtime = runtime' := hother hne
    rw [he, he']
    refine rel_bind (rel_rfl (s := Eq) (fun _ => rfl) _) ?_
    rintro jitter _ rfl
    refine .some ⟨?_, hr.setOther hne _⟩
    simp only [controls_updatePeerMedia]
    exact hcontrols

/-- A burst that takes no marked packet goes the same way in both runs. -/
theorem burst_alike (gain now fuel : Nat) (h : RuntimeAlike g a b) (hkept : g.lost = false) :
    playsMarked π g.marked now fuel a = playsMarked π g.marked now fuel b ∧
      (playsMarked π g.marked now fuel a = false →
        Option.Rel (fun r r' => r.1 = r'.1 ∧ RuntimeAlike g r.2 r'.2)
          (playoutBurst π gain now fuel a) (playoutBurst π gain now fuel b)) := by
  induction fuel generalizing a b with
  | zero => exact ⟨rfl, fun _ => .some ⟨rfl, h⟩⟩
  | succ fuel ih =>
    unfold playsMarked playoutBurst
    rcases rel_cases ((h.jitter hkept).decision π now) with
      ⟨ha, hb⟩ | ⟨⟨d, c⟩, ⟨e, c'⟩, ha, hb, hslots, htakes, hsame⟩
    · rw [ha, hb]
      exact ⟨rfl, fun _ => .none⟩
    · rw [ha, hb]
      simp only at htakes hsame ⊢
      cases htaken : d.takes g.marked c with
      | true =>
        rw [← htakes, htaken]
        exact ⟨rfl, fun hfree => by simp at hfree⟩
      | false =>
        obtain rfl := hsame htaken
        rw [← htakes, htaken, h.decoder hkept]
        simp only [Bool.false_or, Option.bind_eq_bind, Option.bind_some]
        have hnext : RuntimeAlike g
            { a with
              jitter := c
              decoder := (decodeDecision b.decoder d).2
              decodedFrames := a.decodedFrames + 1 }
            { b with
              jitter := c'
              decoder := (decodeDecision b.decoder d).2
              decodedFrames := b.decodedFrames + 1 } :=
          ⟨h.sequence, h.timestamp, h.encoder, hslots.left, hslots.right, fun _ => rfl,
            fun _ => hslots⟩
        cases (decodeDecision b.decoder d).1 with
        | none =>
          refine ⟨rfl, fun _ => .some ⟨rfl, ?_⟩⟩
          exact ⟨h.sequence, h.timestamp, h.encoder, hslots.left, hslots.right, fun _ => rfl,
            fun _ => hslots⟩
        | some pcm =>
          obtain ⟨hplays, hbursts⟩ := ih hnext
          simp only [Option.isSome_some, Bool.true_and]
          refine ⟨hplays, fun hfree => rel_bind (hbursts hfree) ?_⟩
          rintro r r' ⟨hpcm, hruntime⟩
          exact .some ⟨by rw [hpcm], hruntime⟩

/-- A burst leaves what the peer is sent alone. -/
theorem burst_sends {gain now fuel : Nat} {pcm : List κ.Pcm} (hw : a.jitter.WellFormed)
    (h : playoutBurst π gain now fuel a = some (pcm, b)) :
    b.nextSendSequence = a.nextSendSequence ∧
      b.nextSendTimestampSamples = a.nextSendTimestampSamples ∧ b.encoder = a.encoder ∧
      b.jitter.WellFormed := by
  induction fuel generalizing a pcm with
  | zero =>
    obtain ⟨_, rfl⟩ := Prod.mk.inj (Option.some.inj h)
    exact ⟨rfl, rfl, rfl, hw⟩
  | succ fuel ih =>
    unfold playoutBurst at h
    obtain ⟨⟨d, c⟩, hd, h⟩ := Option.bind_eq_some_iff.mp h
    have hc := hw.decision hd
    simp only at h
    cases hdecoded : (decodeDecision a.decoder d).1 with
    | none =>
      simp only [hdecoded, Option.pure_def, Option.some.injEq, Prod.mk.injEq] at h
      obtain ⟨_, rfl⟩ := h
      exact ⟨rfl, rfl, rfl, hc⟩
    | some samples =>
      simp only [hdecoded, Option.bind_eq_bind, Option.bind_eq_some_iff, Option.pure_def,
        Option.some.injEq, Prod.mk.injEq] at h
      obtain ⟨r, hrest, _, rfl⟩ := h
      exact ih (a := { a with
        jitter := c
        decoder := (decodeDecision a.decoder d).2
        decodedFrames := a.decodedFrames + 1 }) hc hrest

theorem burst_hold {gain now fuel : Nat}
    (h : (a.jitter.nextPlayoutDecision π now).map Prod.fst = some .hold)
    {r : List κ.Pcm × MediaPeerRuntime κ} (hr : playoutBurst π gain now fuel a = some r) :
    r.1 = [] := by
  obtain ⟨⟨_, jitter⟩, hdecision, rfl⟩ := Option.map_eq_some_iff.mp h
  cases fuel with
  | zero =>
    obtain rfl := Option.some.inj hr
    rfl
  | succ fuel =>
    simp only [playoutBurst, hdecision, Option.bind_eq_bind, Option.bind_some, decodeDecision,
      Option.pure_def, Option.some.injEq] at hr
    rw [← hr]

theorem pushed_append (pcm pcm' : List (String × κ.Pcm)) :
    pushed peerId (pcm ++ pcm') = pushed peerId pcm ++ pushed peerId pcm' := by
  simp only [pushed, List.filter_append, List.map_append]

theorem pushed_own (pcm : List κ.Pcm) :
    pushed peerId (pcm.map fun samples => (peerId, samples)) = pcm := by
  simp [pushed, List.filter_map, Function.comp_def]

theorem pushed_other (hne : q ≠ peerId) (pcm : List κ.Pcm) :
    pushed peerId (pcm.map fun samples => (q, samples)) = [] := by
  simp [pushed, List.filter_map, Function.comp_def, hne]

variable {R R' : MediaPeerRuntime κ → MediaPeerRuntime κ → Prop} {now : Nat}
  {peerIds : List String}

/-- A tick over other peers does the same in both runs. -/
theorem drive_others (π : Profile) (now : Nat) (hcontrols : status.controls = status'.controls)
    (h : PeersAlike R peerId peers peers') (hnot : peerId ∉ peerIds) :
    Option.Rel (fun r r' => (pushed peerId r.1 = [] ∧ pushed peerId r'.1 = []) ∧
        r.2.1.controls = r'.2.1.controls ∧ PeersAlike R peerId r.2.2 r'.2.2)
      (drivePlayout π now peerIds status peers) (drivePlayout π now peerIds status' peers') := by
  induction peerIds generalizing status status' peers peers' with
  | nil => exact .some ⟨⟨rfl, rfl⟩, hcontrols, h⟩
  | cons q peerIds ih =>
    have hne : q ≠ peerId := fun he => hnot (he ▸ List.mem_cons_self)
    have hrest : peerId ∉ peerIds := fun hm => hnot (List.mem_cons_of_mem _ hm)
    have hsame := h.other q hne
    unfold drivePlayout
    rw [← hsame]
    cases peers q with
    | none => exact ih hcontrols h hrest
    | some runtime =>
      simp only
      rw [← peerOutputGain_controls hcontrols]
      refine rel_bind (rel_rfl (s := Eq) (fun _ => rfl) _) ?_
      rintro ⟨samples, runtime'⟩ _ rfl
      refine rel_bind (ih ?_ (h.setOther hne _) hrest) ?_
      · simp only [controls_updatePeerMedia]
        exact hcontrols
      · rintro r r' ⟨⟨hpushed, hpushed'⟩, hafter⟩
        refine .some ⟨⟨?_, ?_⟩, hafter⟩
        · rw [pushed_append, pushed_other hne, hpushed]
          rfl
        · rw [pushed_append, pushed_other hne, hpushed']
          rfl

/-- A tick does to the peer what its burst does. -/
theorem drive_own {gain : Nat} {S : List κ.Pcm → List κ.Pcm → Prop}
    (hcontrols : status.controls = status'.controls) (h : PeersAlike R peerId peers peers')
    (hmem : peerId ∈ peerIds) (hnodup : peerIds.Nodup) (hgain : status.peerOutputGain peerId = gain)
    (hempty : S [] [])
    (hburst : ∀ a b, peers peerId = some a → peers' peerId = some b →
      Option.Rel (fun r r' => S r.1 r'.1 ∧ R' r.2 r'.2)
        (playoutBurst π gain now maxPlayoutBurstFrames a)
        (playoutBurst π gain now maxPlayoutBurstFrames b)) :
    Option.Rel (fun r r' => S (pushed peerId r.1) (pushed peerId r'.1) ∧
        r.2.1.controls = r'.2.1.controls ∧ PeersAlike R' peerId r.2.2 r'.2.2)
      (drivePlayout π now peerIds status peers) (drivePlayout π now peerIds status' peers') := by
  induction peerIds generalizing status status' peers peers' with
  | nil => cases hmem
  | cons q peerIds ih =>
    obtain ⟨hnot, hnodup⟩ := List.nodup_cons.mp hnodup
    unfold drivePlayout
    by_cases hq : q = peerId
    · subst hq
      rcases rel_cases h.own with ⟨hp, hp'⟩ | ⟨a, b, hp, hp', _⟩
      · rw [hp, hp']
        have habsent : PeersAlike R' q peers peers' := h.absent hp
        have hothers := drive_others π now hcontrols habsent hnot
        rcases rel_cases hothers with ⟨hd, hd'⟩ | ⟨r, r', hd, hd', ⟨hpushed, hpushed'⟩, hafter⟩
        · rw [hd, hd']
          exact .none
        · rw [hd, hd']
          refine .some ⟨?_, hafter⟩
          rw [hpushed, hpushed']
          exact hempty
      · rw [hp, hp']
        simp only
        rw [← peerOutputGain_controls hcontrols, hgain]
        refine rel_bind (hburst a b hp hp') ?_
        rintro ⟨samples, runtime⟩ ⟨samples', runtime'⟩ ⟨hsamples, hruntime⟩
        refine rel_bind (drive_others π now ?_ (h.setOwn (.some hruntime)) hnot) ?_
        · simp only [controls_updatePeerMedia]
          exact hcontrols
        · rintro r r' ⟨⟨hpushed, hpushed'⟩, hafter⟩
          refine .some ⟨?_, hafter⟩
          rw [pushed_append, pushed_append, pushed_own, pushed_own, hpushed, hpushed',
            List.append_nil, List.append_nil]
          exact hsamples
    · have hrest := (List.mem_cons.mp hmem).resolve_left (Ne.symm hq)
      have hsame := h.other q hq
      rw [← hsame]
      cases peers q with
      | none => exact ih hcontrols h hrest hnodup hgain hburst
      | some runtime =>
        simp only
        rw [← peerOutputGain_controls hcontrols]
        refine rel_bind (rel_rfl (s := Eq) (fun _ => rfl) _) ?_
        rintro ⟨samples, runtime'⟩ _ rfl
        refine rel_bind (ih ?_ (h.setOther hq _) hrest hnodup ?_ ?_) ?_
        · simp only [controls_updatePeerMedia]
          exact hcontrols
        · rw [← hgain]
          exact peerOutputGain_controls (controls_updatePeerMedia _ _ _)
        · rw [Function.update_of_ne (Ne.symm hq), Function.update_of_ne (Ne.symm hq)]
          exact hburst
        · rintro r r' ⟨hpushed, hafter⟩
          refine .some ⟨?_, hafter⟩
          rw [pushed_append, pushed_append, pushed_other hq]
          exact hpushed

end

structure EnginesAlike (g : MuteTaint) (peerId : String) (s t : PlaybackState κ) : Prop where
  controls : s.status.controls = t.status.controls
  media : Option.Rel (PeersAlike (RuntimeAlike g) peerId) s.media t.media

/-- Two runs agree on a step, and are alike after it. -/
structure StepsAlike (π : Profile) (peerId : String) (g : MuteTaint) (x y : PlaybackTransition κ) :
    Prop where
  taint : taintAfter π peerId g x = taintAfter π peerId g y
  after : EnginesAlike (taintAfter π peerId g x) peerId x.after y.after
  shown : x.before.muted peerId = true → pushed peerId x.output = pushed peerId y.output

section

variable {g g' : MuteTaint} {s t : PlaybackState κ} {π : Profile} {peerId : String}
  {x y : PlaybackTransition κ}

theorem EnginesAlike.run (h : EnginesAlike g peerId s t) {S : List κ.Pcm → List κ.Pcm → Prop}
    (call call' : PlaybackCall κ) (hempty : S [] [])
    (hcall : ∀ peers peers', s.media = some peers → t.media = some peers' →
      PeersAlike (RuntimeAlike g) peerId peers peers' →
      Option.Rel (fun r r' => S (pushed peerId r.1) (pushed peerId r'.1) ∧
          r.2.1.controls = r'.2.1.controls ∧ PeersAlike (RuntimeAlike g') peerId r.2.2 r'.2.2)
        (call s.status peers) (call' t.status peers')) :
    EnginesAlike g' peerId (s.run call).2 (t.run call').2 ∧
      S (pushed peerId (s.run call).1) (pushed peerId (t.run call').1) := by
  unfold PlaybackState.run
  rcases rel_cases h.media with ⟨hs, ht⟩ | ⟨peers, peers', hs, ht, hpeers⟩
  · rw [hs, ht]
    refine ⟨⟨h.controls, ?_⟩, hempty⟩
    rw [hs, ht]
    exact .none
  · rw [hs, ht]
    simp only
    rcases rel_cases (hcall peers peers' hs ht hpeers) with
      ⟨hc, hc'⟩ | ⟨r, r', hc, hc', hshown, hcontrols, hafter⟩
    · rw [hc, hc']
      exact ⟨⟨h.controls, .none⟩, hempty⟩
    · rw [hc, hc']
      exact ⟨⟨hcontrols, .some hafter⟩, hshown⟩

theorem EnginesAlike.stepped (h : EnginesAlike g peerId x.before y.before)
    {S : List κ.Pcm → List κ.Pcm → Prop} {call call' : PlaybackCall κ}
    (hstep : some (x.before.run call) = some (x.output, x.after))
    (hstep' : some (y.before.run call') = some (y.output, y.after)) (hempty : S [] [])
    (hcall : ∀ peers peers', x.before.media = some peers → y.before.media = some peers' →
      PeersAlike (RuntimeAlike g) peerId peers peers' →
      Option.Rel (fun r r' => S (pushed peerId r.1) (pushed peerId r'.1) ∧
          r.2.1.controls = r'.2.1.controls ∧ PeersAlike (RuntimeAlike g') peerId r.2.2 r'.2.2)
        (call x.before.status peers) (call' y.before.status peers')) :
    EnginesAlike g' peerId x.after y.after ∧ S (pushed peerId x.output) (pushed peerId y.output) := by
  have hrun := h.run call call' hempty hcall
  rwa [Option.some.inj hstep, Option.some.inj hstep'] at hrun

theorem PlaybackState.runtime?_of_media {peers : MediaPeers κ} (h : s.media = some peers)
    (peerId : String) : s.runtime? peerId = peers peerId := by
  simp only [PlaybackState.runtime?, h, Option.bind_some]

theorem EnginesAlike.runtime (h : EnginesAlike g peerId s t) :
    Option.Rel (RuntimeAlike g) (s.runtime? peerId) (t.runtime? peerId) := by
  unfold PlaybackState.runtime?
  exact rel_bind h.media fun _ _ hpeers => hpeers.own

theorem EnginesAlike.receive (h : EnginesAlike g peerId s t) (frame : MediaFrame)
    (payload : List UInt8) (muted : Bool) :
    g.receive π (((s.runtime? peerId).map MediaPeerRuntime.jitter).getD .new) frame muted =
      g.receive π (((t.runtime? peerId).map MediaPeerRuntime.jitter).getD .new)
        { frame with payload := payload } muted := by
  have hclaimed : normalizeTimestampSamples π { frame with payload := payload } =
      normalizeTimestampSamples π frame := rfl
  unfold MuteTaint.receive
  split_ifs with hkept
  · rcases rel_cases h.runtime with ⟨hs, ht⟩ | ⟨a, b, hs, ht, hr⟩
    · rw [hs, ht]
      rfl
    · rw [hs, ht]
      simp only [Option.map_some, Option.getD_some, marksAfter, hclaimed,
        (hr.jitter hkept).markSlot_eq]
  · rfl

/-- Once a marked packet has been decoded, all that is left is what is sent. -/
theorem RuntimeAlike.lose {a b a' b' : MediaPeerRuntime κ} (h : RuntimeAlike g a b)
    (hlost : g'.lost = true) {gain now fuel : Nat} {pcm pcm' : List κ.Pcm}
    (ha : playoutBurst π gain now fuel a = some (pcm, a'))
    (hb : playoutBurst π gain now fuel b = some (pcm', b')) : RuntimeAlike g' a' b' := by
  obtain ⟨hseq, hts, henc, hw⟩ := burst_sends h.left ha
  obtain ⟨hseq', hts', henc', hw'⟩ := burst_sends h.right hb
  refine ⟨?_, ?_, ?_, hw, hw', fun hkept => ?_, fun hkept => ?_⟩
  · rw [hseq, hseq', h.sequence]
  · rw [hts, hts', h.timestamp]
  · rw [henc, henc', h.encoder]
  · rw [hlost] at hkept
    cases hkept
  · rw [hlost] at hkept
    cases hkept

variable {now : Nat} {peerIds : List String}

theorem taintAfter_playout (hinput : x.input = .playout now peerIds) (hmem : peerId ∈ peerIds)
    {a : MediaPeerRuntime κ} (ha : x.before.runtime? peerId = some a) :
    taintAfter π peerId g x =
      { g with lost := g.lost || playsMarked π g.marked now maxPlayoutBurstFrames a } := by
  simp [taintAfter, hinput, hmem, ha]

theorem taintAfter_absent (hinput : x.input = .playout now peerIds)
    (habsent : peerId ∉ peerIds ∨ x.before.runtime? peerId = none) :
    taintAfter π peerId g x = g := by
  rcases habsent with hnot | hnone
  · simp [taintAfter, hinput, hnot]
  · simp [taintAfter, hinput, hnone]

/-- The bursts of a tick that keeps the rule. -/
theorem quietBurst_alike {a b : MediaPeerRuntime κ} (h : RuntimeAlike g a b)
    (hx : x.input = .playout now peerIds) (hy : y.input = .playout now peerIds)
    (hmem : peerId ∈ peerIds) (ha : x.before.runtime? peerId = some a)
    (hb : y.before.runtime? peerId = some b) (hqx : QuietTick π peerId g x)
    (hqy : QuietTick π peerId g y) (hcontrols : x.before.status.controls = y.before.status.controls) :
    taintAfter π peerId g x = taintAfter π peerId g y ∧
      Option.Rel (fun r r' => (x.before.muted peerId = true → r.1 = r'.1) ∧
          RuntimeAlike (taintAfter π peerId g x) r.2 r'.2)
        (playoutBurst π (x.before.status.peerOutputGain peerId) now maxPlayoutBurstFrames a)
        (playoutBurst π (x.before.status.peerOutputGain peerId) now maxPlayoutBurstFrames b) := by
  have hgain : x.before.status.peerOutputGain peerId = y.before.status.peerOutputGain peerId :=
    peerOutputGain_controls hcontrols
  have hmuted := muted_controls hcontrols peerId
  have hx' : x.input.tick? = some (now, peerIds) := by rw [hx]; rfl
  have hy' : y.input.tick? = some (now, peerIds) := by rw [hy]; rfl
  rw [taintAfter_playout hx hmem ha, taintAfter_playout hy hmem hb]
  cases hlost : g.lost with
  | true =>
    obtain ⟨hsome, hhold⟩ := hqx (now, peerIds) hx' hmem a ha (.inl hlost)
    obtain ⟨hsome', hhold'⟩ := hqy (now, peerIds) hy' hmem b hb (.inl hlost)
    obtain ⟨r, hr⟩ := Option.isSome_iff_exists.mp hsome
    obtain ⟨r', hr'⟩ := Option.isSome_iff_exists.mp hsome'
    rw [← hgain] at hr'
    simp only [Bool.true_or]
    rw [hr, hr']
    refine ⟨trivial, .some ⟨fun hm => ?_, h.lose rfl hr hr'⟩⟩
    rw [burst_hold (hhold hm).2 hr, burst_hold (hhold' (hmuted ▸ hm)).2 hr']
  | false =>
    obtain ⟨hplays, hbursts⟩ := burst_alike (π := π)
      (x.before.status.peerOutputGain peerId) now maxPlayoutBurstFrames h hlost
    simp only [Bool.false_or]
    refine ⟨by rw [hplays], ?_⟩
    cases htaken : playsMarked π g.marked now maxPlayoutBurstFrames a with
    | true =>
      obtain ⟨hsome, hloud⟩ := hqx (now, peerIds) hx' hmem a ha (.inr htaken)
      obtain ⟨hsome', _⟩ := hqy (now, peerIds) hy' hmem b hb (.inr (hplays ▸ htaken))
      obtain ⟨r, hr⟩ := Option.isSome_iff_exists.mp hsome
      obtain ⟨r', hr'⟩ := Option.isSome_iff_exists.mp hsome'
      rw [← hgain] at hr'
      rw [hr, hr']
      refine .some ⟨fun hm => ?_, h.lose rfl hr hr'⟩
      have hkept := (hloud hm).1
      rw [hlost] at hkept
      cases hkept
    | false =>
      have hg : { g with lost := false } = g := by rw [← hlost]
      rw [hg]
      exact rel_imp (hbursts htaken) fun _ _ hr => ⟨fun _ => hr.1, hr.2⟩

theorem playout_alike (h : EnginesAlike g peerId x.before y.before)
    (hx : x.input = .playout now peerIds) (hy : y.input = .playout now peerIds)
    (hstep : x.before.step π x.input = some (x.output, x.after))
    (hstep' : y.before.step π y.input = some (y.output, y.after)) (hqx : QuietTick π peerId g x)
    (hqy : QuietTick π peerId g y) : StepsAlike π peerId g x y := by
  rw [hx] at hstep
  rw [hy] at hstep'
  simp only [PlaybackState.step] at hstep hstep'
  split_ifs at hstep hstep' with hnodup
  by_cases hmem : peerId ∈ peerIds
  · obtain ⟨hafter, hshown⟩ := h.stepped (S := fun l l' => x.before.muted peerId = true → l = l')
      hstep hstep' (fun _ => rfl) fun peers peers' hpeers hpeers' halike => by
        refine drive_own (S := fun l l' => x.before.muted peerId = true → l = l') h.controls halike
          hmem hnodup rfl (fun _ => rfl) fun a b ha hb => ?_
        have ha' := (PlaybackState.runtime?_of_media hpeers peerId).trans ha
        have hb' := (PlaybackState.runtime?_of_media hpeers' peerId).trans hb
        have hr := halike.own
        rw [ha, hb] at hr
        obtain ⟨hr⟩ := hr
        exact (quietBurst_alike hr hx hy hmem ha' hb' hqx hqy h.controls).2
    refine ⟨?_, hafter, hshown⟩
    rcases rel_cases h.runtime with ⟨ha, hb⟩ | ⟨a, b, ha, hb, hr⟩
    · rw [taintAfter_absent hx (.inr ha), taintAfter_absent hy (.inr hb)]
    · exact (quietBurst_alike hr hx hy hmem ha hb hqx hqy h.controls).1
  · have hkept := taintAfter_absent (π := π) (g := g) hx (.inl hmem)
    obtain ⟨hafter, hshown⟩ := h.stepped (S := Eq) hstep hstep' rfl
      fun peers peers' _ _ halike =>
        rel_imp (drive_others π now h.controls halike hmem) fun _ _ hr =>
          ⟨hr.1.1.trans hr.1.2.symm, hr.2⟩
    refine ⟨hkept.trans (taintAfter_absent hy (.inl hmem)).symm, ?_, fun _ => hshown⟩
    rwa [hkept]

theorem frame_alike (h : EnginesAlike g peerId x.before y.before) {q : String} {frame : MediaFrame}
    {payload : List UInt8} (hx : x.input = .incomingFrame q frame)
    (hy : y.input = .incomingFrame q { frame with payload := payload })
    (hown : q = peerId → x.before.muted peerId = true ∨ payload = frame.payload)
    (hother : q ≠ peerId → payload = frame.payload)
    (hstep : x.before.step π x.input = some (x.output, x.after))
    (hstep' : y.before.step π y.input = some (y.output, y.after)) : StepsAlike π peerId g x y := by
  rw [hx] at hstep
  rw [hy] at hstep'
  by_cases hq : q = peerId
  · subst hq
    have htaint : taintAfter π q g x = g.receive π
        (((x.before.runtime? q).map MediaPeerRuntime.jitter).getD .new) frame (x.before.muted q) := by
      simp only [taintAfter, hx, if_true]
    have htaint' : taintAfter π q g x = taintAfter π q g y := by
      rw [htaint, h.receive frame payload]
      simp only [taintAfter, hy, if_true, muted_controls h.controls]
    obtain ⟨hafter, hshown⟩ := h.stepped (S := Eq) hstep hstep' rfl
      fun peers peers' hpeers _ halike => by
        rw [PlaybackState.runtime?_of_media hpeers q] at htaint
        exact rel_map (ownFrame_alike h.controls halike (hown rfl) htaint) fun _ _ hr => ⟨rfl, hr⟩
    exact ⟨htaint', hafter, fun _ => hshown⟩
  · obtain rfl := hother hq
    obtain ⟨hafter, hshown⟩ := h.stepped (S := Eq) hstep hstep' rfl fun _ _ _ _ halike =>
      rel_map (otherFrame_alike h.controls halike hq frame) fun _ _ hr => ⟨rfl, hr⟩
    have hkept : ∀ z : PlaybackTransition κ, z.input = .incomingFrame q frame →
        taintAfter π peerId g z = g := by
      intro z hz
      simp only [taintAfter, hz, if_neg hq]
    refine ⟨(hkept x hx).trans (hkept y hy).symm, ?_, fun _ => hshown⟩
    rwa [hkept x hx]

theorem taintAfter_command {command : MediaCommand} (hinput : x.input = .command command) :
    taintAfter π peerId g x =
      if command = .disconnectPeer peerId then { g with lost := false } else g := by
  cases command with
  | disconnectPeer q => simp [taintAfter, hinput]
  | _ => simp [taintAfter, hinput]

theorem command_step (h : EnginesAlike g peerId x.before y.before) {command : MediaCommand}
    (hx : x.input = .command command) (hy : y.input = .command command)
    (hstep : x.before.step π x.input = some (x.output, x.after))
    (hstep' : y.before.step π y.input = some (y.output, y.after)) : StepsAlike π peerId g x y := by
  rw [hx] at hstep
  rw [hy] at hstep'
  have hrun : EnginesAlike (taintAfter π peerId g x) peerId x.after y.after ∧
      pushed peerId x.output = pushed peerId y.output := by
    refine h.stepped (S := Eq) hstep hstep' rfl fun peers peers' _ _ halike => ?_
    obtain ⟨hcontrols, hpeers⟩ := command_alike h.controls halike command
    refine .some ⟨rfl, hcontrols, ?_⟩
    rw [taintAfter_command hx]
    split_ifs with hgone
    · refine hpeers.absent ?_
      rw [hgone]
      exact Function.update_self peerId none peers
    · exact hpeers
  exact ⟨(taintAfter_command hx).trans (taintAfter_command hy).symm, hrun.1, fun _ => hrun.2⟩

theorem shared_step (h : EnginesAlike g peerId x.before y.before) {status status' : DaemonStatus}
    (hx : x.input = .shared status) (hy : y.input = .shared status')
    (hcontrols : status.controls = status'.controls)
    (hstep : x.before.step π x.input = some (x.output, x.after))
    (hstep' : y.before.step π y.input = some (y.output, y.after)) : StepsAlike π peerId g x y := by
  rw [hx] at hstep
  rw [hy] at hstep'
  obtain ⟨hout, hafter⟩ := Prod.mk.inj (Option.some.inj hstep)
  obtain ⟨hout', hafter'⟩ := Prod.mk.inj (Option.some.inj hstep')
  constructor
  · simp only [taintAfter, hx, hy]
  · rw [← hafter, ← hafter']
    simp only [taintAfter, hx]
    exact ⟨hcontrols, h.media⟩
  · intro _
    rw [← hout, ← hout']

theorem build_step (h : EnginesAlike g peerId x.before y.before) {q : String} {pcm : κ.Pcm}
    {nowMs : UInt64} (hx : x.input = .buildNextAudioFrame q pcm nowMs)
    (hy : y.input = .buildNextAudioFrame q pcm nowMs)
    (hstep : x.before.step π x.input = some (x.output, x.after))
    (hstep' : y.before.step π y.input = some (y.output, y.after)) : StepsAlike π peerId g x y := by
  rw [hx] at hstep
  rw [hy] at hstep'
  obtain ⟨hafter, hshown⟩ := h.stepped (S := Eq) hstep hstep' rfl fun _ _ _ _ halike =>
    rel_map (build_alike h.controls halike q pcm nowMs) fun _ _ hr => ⟨rfl, hr⟩
  have hkept : taintAfter π peerId g x = g := by simp only [taintAfter, hx]
  have hkept' : taintAfter π peerId g y = g := by simp only [taintAfter, hy]
  refine ⟨hkept.trans hkept'.symm, ?_, fun _ => hshown⟩
  rwa [hkept]

/-- Both runs find the peer muted or not, and are alike after a step. -/
theorem step_alike (h : EnginesAlike g peerId x.before y.before) (hinput : AlikeInput peerId x y)
    (hstep : x.before.step π x.input = some (x.output, x.after))
    (hstep' : y.before.step π y.input = some (y.output, y.after)) (hqx : QuietTick π peerId g x)
    (hqy : QuietTick π peerId g y) : StepsAlike π peerId g x y := by
  have hframe : ∀ {q frame} payload, x.input = .incomingFrame q frame →
      y.input = .incomingFrame q { frame with payload := payload } →
      (q = peerId → x.before.muted peerId = true ∨ payload = frame.payload) →
      (q ≠ peerId → payload = frame.payload) → _ :=
    fun {q frame} payload hx hy hown hother => frame_alike h hx hy hown hother hstep hstep'
  cases hinput with
  | mutedFrame frame payload hx hy hmuted _ =>
    exact hframe payload hx hy (fun _ => .inl hmuted) fun hne => absurd rfl hne
  | shared status status' hx hy hcontrols => exact shared_step h hx hy hcontrols hstep hstep'
  | same hsame =>
    cases hx : x.input with
    | shared status => exact shared_step h hx (hsame ▸ hx) rfl hstep hstep'
    | command command => exact command_step h hx (hsame ▸ hx) hstep hstep'
    | incomingFrame q frame =>
      exact hframe frame.payload hx (hsame ▸ hx) (fun _ => .inr rfl) fun _ => rfl
    | buildNextAudioFrame q pcm nowMs => exact build_step h hx (hsame ▸ hx) hstep hstep'
    | playout now peerIds => exact playout_alike h hx (hsame ▸ hx) hstep hstep' hqx hqy

theorem mutedPcm_alike {s t s' t' : PlaybackState κ} {a b : List (PlaybackTransition κ)}
    (h : EnginesAlike g peerId s t) (ha : Trace (PlaybackState.step π) s a s')
    (hb : Trace (PlaybackState.step π) t b t') (hinputs : List.Forall₂ (AlikeInput peerId) a b)
    (hqa : Guarded (taintAfter π peerId) (QuietTick π peerId) g a)
    (hqb : Guarded (taintAfter π peerId) (QuietTick π peerId) g b) :
    mutedPcm peerId a = mutedPcm peerId b := by
  induction hinputs generalizing g s t with
  | nil => rfl
  | @cons x y a b hinput _ ih =>
    obtain ⟨hx, hqa⟩ := hqa
    obtain ⟨hy, hqb⟩ := hqb
    cases ha with
    | cons hstep ha =>
      cases hb with
      | cons hstep' hb =>
        obtain ⟨htaint, halike, hshown⟩ := step_alike h hinput hstep hstep' hx hy
        have hrest := ih halike ha hb hqa (htaint ▸ hqb)
        unfold mutedPcm at hrest ⊢
        rw [List.map_cons, List.map_cons, hrest, ← muted_controls h.controls]
        congr 1
        split_ifs with hmuted
        · exact hshown hmuted
        · rfl

/-- In two runs whose frames from the peer differ in payload and under mute
only, its output gets the same under mute, as long as no tick under mute plays
what came under mute or depends on it. -/
theorem muted_peer_unheard {status : DaemonStatus} {a b : List (PlaybackTransition κ)}
    {s t : PlaybackState κ} (ha : Trace (PlaybackState.step π) (.start status) a s)
    (hb : Trace (PlaybackState.step π) (.start status) b t) (peerId : String)
    (hinputs : List.Forall₂ (AlikeInput peerId) a b)
    (hqa : Guarded (taintAfter π peerId) (QuietTick π peerId) .clean a)
    (hqb : Guarded (taintAfter π peerId) (QuietTick π peerId) .clean b) :
    mutedPcm peerId a = mutedPcm peerId b :=
  mutedPcm_alike ⟨rfl, .some ⟨fun _ _ => rfl, .none⟩⟩ ha hb hinputs hqa hqb

end

def mutedPayloads (tr : List (PlaybackTransition silentCodec)) : List (List (List UInt8)) :=
  mutedPcm "p" tr

/-- The peer of the fixed runs, with the flag of its row. -/
def peerStatus (muted : Bool) : DaemonStatus :=
  { DaemonStatus.fresh "local" with
    peers := [
      { peerId := "p", displayName := "peer", address := "", muted := muted,
        outputVolumePercent := 100, outputBus := "peer_bus_01", transport := .connected,
        session := .active none "peer",
        media :=
          { streamState := .idle, sentPackets := 0, receivedPackets := 0, lostPackets := 0,
            latePackets := 0, concealedFrames := 0, driftCorrections := 0, queuedPackets := 0,
            decodedFrames := 0, queuedSamples := 0, lastSequence := none, routeVia := none } }] }

def playbackRun (muted : Bool) (events : List (PlaybackEvent silentCodec)) :
    Option (List (PlaybackTransition silentCodec) × PlaybackState silentCodec) :=
  execute (PlaybackState.step .release) (.start (peerStatus muted)) events

def peerFrame (sequence timestampSamples : UInt64) (payload : List UInt8) :
    PlaybackEvent silentCodec :=
  .incomingFrame "p" { audioFrame sequence timestampSamples with payload := payload }

/-- A muted peer sends three frames, and a tick follows. -/
def mutedFrames (payload : List UInt8) : List (PlaybackEvent silentCodec) :=
  [peerFrame 1 0 payload, peerFrame 2 960 payload, peerFrame 3 1920 payload,
    .playout (millis 100) ["p"]]

theorem alikeInputs {peerId : String} {a b : List (PlaybackTransition κ)}
    (h : List.Forall₂ (fun u v : PlaybackEvent κ × Bool => u.1 = v.1 ∨
        ∃ frame payload, u.1 = .incomingFrame peerId frame ∧
          v.1 = .incomingFrame peerId { frame with payload := payload } ∧ u.2 = true ∧ v.2 = true)
      ((a.map Transition.input).zip (a.map fun x => x.before.muted peerId))
      ((b.map Transition.input).zip (b.map fun x => x.before.muted peerId))) :
    List.Forall₂ (AlikeInput peerId) a b := by
  rw [List.zip_map', List.zip_map', List.forall₂_map_left_iff, List.forall₂_map_right_iff] at h
  refine h.imp fun x y hxy => ?_
  rcases hxy with hsame | ⟨frame, payload, hx, hy, hmuted, hmuted'⟩
  · exact .same hsame
  · exact .mutedFrame frame payload hx hy hmuted hmuted'

theorem mutedFrames_pcm :
    (playbackRun true (mutedFrames [1])).map (fun r =>
        (r.1.map fun x => x.before.muted "p", mutedPayloads r.1)) =
      some ([true, true, true, true], [[], [], [], [[1], [1], [1]]]) ∧
    (playbackRun true (mutedFrames [2])).map (fun r =>
        (r.1.map fun x => x.before.muted "p", mutedPayloads r.1)) =
      some ([true, true, true, true], [[], [], [], [[2], [2], [2]]]) := by
  constructor
  · decide +kernel
  · decide +kernel

theorem mutedFrames_heard :
    ¬ ∀ (a b : List (PlaybackTransition silentCodec)) (s t : PlaybackState silentCodec),
      Trace (PlaybackState.step .release) (.start (peerStatus true)) a s →
      Trace (PlaybackState.step .release) (.start (peerStatus true)) b t →
      List.Forall₂ (AlikeInput "p") a b → mutedPcm "p" a = mutedPcm "p" b := by
  intro hall
  obtain ⟨⟨a, s⟩, ha, hone⟩ := Option.map_eq_some_iff.mp mutedFrames_pcm.1
  obtain ⟨⟨b, t⟩, hb, htwo⟩ := Option.map_eq_some_iff.mp mutedFrames_pcm.2
  obtain ⟨hmuted, hpcm⟩ := Prod.mk.inj hone
  obtain ⟨hmuted', hpcm'⟩ := Prod.mk.inj htwo
  have hinputs : List.Forall₂ (AlikeInput "p") a b := by
    refine alikeInputs ?_
    rw [execute_inputs ha, execute_inputs hb, hmuted, hmuted']
    have hframe : ∀ sequence timestampSamples, ∃ frame payload,
        peerFrame sequence timestampSamples [1] = .incomingFrame "p" frame ∧
          peerFrame sequence timestampSamples [2] =
            .incomingFrame "p" { frame with payload := payload } ∧ true = true ∧ true = true :=
      fun sequence timestampSamples =>
        ⟨{ audioFrame sequence timestampSamples with payload := [1] }, [2], rfl, rfl, rfl, rfl⟩
    exact .cons (.inr (hframe 1 0)) (.cons (.inr (hframe 2 960)) (.cons (.inr (hframe 3 1920))
      (.cons (.inl rfl) .nil)))
  have hsame := hall a b s t (execute_trace ha) (execute_trace hb) hinputs
  have hpayloads : mutedPayloads a = mutedPayloads b := hsame
  rw [hpcm, hpcm'] at hpayloads
  exact absurd hpayloads (by decide)

/-- The peer is muted when three of its frames are buffered; a fourth comes
under mute, and the tick plays the three. -/
def lastFrameMuted (payload : List UInt8) : List (PlaybackEvent silentCodec) :=
  [peerFrame 1 0 [7], peerFrame 2 960 [8], peerFrame 3 1920 [9], .shared (peerStatus true),
    peerFrame 4 2880 payload, .playout (millis 100) ["p"]]

theorem muted_peer_unheard_lastFrame : ∃ a s b t,
    playbackRun false (lastFrameMuted [1]) = some (a, s) ∧
      playbackRun false (lastFrameMuted [2]) = some (b, t) ∧
      mutedPayloads a = [[], [], [], [], [], [[7], [8], [9]]] ∧
      mutedPcm "p" a = mutedPcm "p" b := by
  have hone : (playbackRun false (lastFrameMuted [1])).map (fun r =>
      (r.1.map fun x => x.before.muted "p", mutedPayloads r.1,
        decide (Guarded (taintAfter .release "p") (QuietTick .release "p") .clean r.1))) =
      some ([false, false, false, false, true, true], [[], [], [], [], [], [[7], [8], [9]]], true) := by
    decide +kernel
  have htwo : (playbackRun false (lastFrameMuted [2])).map (fun r =>
      (r.1.map fun x => x.before.muted "p",
        decide (Guarded (taintAfter .release "p") (QuietTick .release "p") .clean r.1))) =
      some ([false, false, false, false, true, true], true) := by
    decide +kernel
  obtain ⟨⟨a, s⟩, ha, hone⟩ := Option.map_eq_some_iff.mp hone
  obtain ⟨⟨b, t⟩, hb, htwo⟩ := Option.map_eq_some_iff.mp htwo
  simp only [Prod.mk.injEq, decide_eq_true_eq] at hone htwo
  obtain ⟨hmuted, hpcm, hquiet⟩ := hone
  obtain ⟨hmuted', hquiet'⟩ := htwo
  have hinputs : List.Forall₂ (AlikeInput "p") a b := by
    refine alikeInputs ?_
    rw [execute_inputs ha, execute_inputs hb, hmuted, hmuted']
    exact .cons (.inl rfl) (.cons (.inl rfl) (.cons (.inl rfl) (.cons (.inl rfl) (.cons
      (.inr ⟨{ audioFrame 4 2880 with payload := [1] }, [2], rfl, rfl, rfl, rfl⟩)
      (.cons (.inl rfl) .nil)))))
  exact ⟨a, s, b, t, ha, hb, hpcm, muted_peer_unheard (execute_trace ha) (execute_trace hb) "p"
    hinputs hquiet hquiet'⟩

end Voicers
