import Voicers.Media.Engine

/-! What the calls of the media engine change: in the status only the media
data of the listed peers, in the engine only the runtime of the peer they
are about. -/

namespace Voicers

open Lib

def DaemonStatus.peerIds (state : DaemonStatus) : List String := state.peers.map PeerSummary.peerId

theorem DaemonStatus.peerId_of_peer? {state : DaemonStatus} {peerId : String} {peer : PeerSummary}
    (h : state.peer? peerId = some peer) : peer.peerId = peerId := by simpa using List.find?_some h

theorem DaemonStatus.mem_peerIds_of_peer? {state : DaemonStatus} {peerId : String}
    {peer : PeerSummary} (h : state.peer? peerId = some peer) : peerId ∈ state.peerIds := by
  have hlisted : peer.peerId ∈ state.peerIds := List.mem_map_of_mem (List.mem_of_find?_eq_some h)
  rwa [peerId_of_peer? h] at hlisted

/-- Only the records of the listed peers differ, and none of their ids. -/
def DaemonStatus.PeersOnly (state state' : DaemonStatus) : Prop :=
  ∃ peers, state' = { state with peers := peers } ∧ peers.map PeerSummary.peerId = state.peerIds

theorem DaemonStatus.PeersOnly.refl (state : DaemonStatus) : state.PeersOnly state :=
  ⟨state.peers, rfl, rfl⟩

theorem DaemonStatus.PeersOnly.trans {s t u : DaemonStatus} (h : s.PeersOnly t)
    (h' : t.PeersOnly u) : s.PeersOnly u := by
  obtain ⟨peers, rfl, hp⟩ := h
  obtain ⟨peers', rfl, hp'⟩ := h'
  exact ⟨peers', rfl, hp'.trans hp⟩

theorem DaemonStatus.PeersOnly.peerIds {s t : DaemonStatus} (h : s.PeersOnly t) :
    t.peerIds = s.peerIds := by
  obtain ⟨peers, rfl, hp⟩ := h
  exact hp

theorem updateFirst_peersOnly {state : DaemonStatus} {q : PeerSummary → Bool}
    {f : PeerSummary → PeerSummary} (hf : ∀ p, (f p).peerId = p.peerId) :
    state.PeersOnly { state with peers := updateFirst q f state.peers } :=
  ⟨_, rfl, map_updateFirst fun p _ => hf p⟩

theorem updatePeerMedia_peersOnly (state : DaemonStatus) (peerId : String)
    (update : PeerMediaState → PeerMediaState) :
    state.PeersOnly (state.updatePeerMedia peerId update) :=
  updateFirst_peersOnly fun _ => rfl

theorem decision_new (π : Profile) (now : Nat) :
    JitterBuffer.new.nextPlayoutDecision π now = some (.hold, .new) := rfl

section

variable {κ : Codec}

/-- No packet of `peerId` has come: if it has a runtime, its buffer is new. -/
def SilentAt (peers : MediaPeers κ) (peerId : String) : Prop :=
  ∀ runtime, peers peerId = some runtime → runtime.jitter = .new

theorem SilentAt.update {peers : MediaPeers κ} {p : String} (h : SilentAt peers p) {q : String}
    {runtime : Option (MediaPeerRuntime κ)}
    (hr : p = q → ∀ rt, runtime = some rt → rt.jitter = .new) :
    SilentAt (Function.update peers q runtime) p := by
  intro rt hrt
  by_cases hpq : p = q
  · subst hpq
    rw [Function.update_self] at hrt
    exact hr rfl rt hrt
  · rw [Function.update_of_ne hpq] at hrt
    exact h rt hrt

theorem ensurePeerRuntime_spec {peers peers' : MediaPeers κ} {peerId : String}
    {runtime : MediaPeerRuntime κ} (h : ensurePeerRuntime peers peerId = some (runtime, peers')) :
    peers' = Function.update peers peerId (some runtime) ∧
      (peers peerId = some runtime ∨ runtime.jitter = .new) := by
  cases hp : peers peerId with
  | some rt =>
    simp only [ensurePeerRuntime, hp, Option.some.injEq, Prod.mk.injEq] at h
    obtain ⟨rfl, rfl⟩ := h
    exact ⟨by rw [← hp, Function.update_eq_self], .inl rfl⟩
  | none =>
    simp only [ensurePeerRuntime, hp, Option.bind_eq_bind, Option.bind_eq_some_iff, Option.pure_def,
      Option.some.injEq, Prod.mk.injEq] at h
    obtain ⟨encoder, _, decoder, _, rfl, rfl⟩ := h
    exact ⟨rfl, .inr rfl⟩

theorem SilentAt.ensure {peers peers' : MediaPeers κ} {p : String} (h : SilentAt peers p)
    {runtime : MediaPeerRuntime κ} (he : ensurePeerRuntime peers p = some (runtime, peers')) :
    runtime.jitter = .new := by
  rcases (ensurePeerRuntime_spec he).2 with hp | hn
  · exact h runtime hp
  · exact hn

/-- A call for one peer: the status keeps everything but the records of the
listed peers, and the other peers of the engine keep their runtimes. -/
structure CallFor (peerId : String) (state state' : DaemonStatus) (peers peers' : MediaPeers κ) :
    Prop where
  status : state.PeersOnly state'
  other : ∀ q, q ≠ peerId → peers' q = peers q

theorem runMediaCommand_spec (state : DaemonStatus) (peers : MediaPeers κ)
    (command : MediaCommand) :
    state.PeersOnly (runMediaCommand state peers command).1 ∧
      (∀ p, ((runMediaCommand state peers command).2 p).isSome →
        (peers p).isSome ∨ command = .registerPeer p) ∧
      ∀ p, SilentAt peers p → SilentAt (runMediaCommand state peers command).2 p := by
  cases command with
  | registerPeer peerId =>
    simp only [runMediaCommand]
    cases he : ensurePeerRuntime peers peerId with
    | none => exact ⟨.refl state, fun p hp => .inl hp, fun p hp => hp⟩
    | some e =>
      obtain ⟨runtime, peers'⟩ := e
      obtain ⟨rfl, _⟩ := ensurePeerRuntime_spec he
      simp only
      refine ⟨updatePeerMedia_peersOnly _ _ _, fun p hp => ?_, fun p hp => ?_⟩
      · by_cases hpq : p = peerId
        · exact .inr (by rw [hpq])
        · exact .inl (by rwa [Function.update_of_ne hpq] at hp)
      · refine hp.update fun hpq rt hrt => ?_
        subst hpq
        exact Option.some.inj hrt ▸ hp.ensure he
  | disconnectPeer peerId =>
    simp only [runMediaCommand]
    refine ⟨updatePeerMedia_peersOnly _ _ _, fun p hp => .inl ?_, fun p hp => ?_⟩
    · by_cases hpq : p = peerId
      · subst hpq
        simp at hp
      · rwa [Function.update_of_ne hpq] at hp
    · exact hp.update fun _ rt hrt => by simp at hrt
  | handleAck peerId ack =>
    simp only [runMediaCommand]
    exact ⟨updatePeerMedia_peersOnly _ _ _, fun p hp => .inl hp, fun p hp => hp⟩

theorem handleIncomingFrame_callFor {π : Profile} {state state' : DaemonStatus}
    {peers peers' : MediaPeers κ} {peerId : String} {frame : MediaFrame} {ack : Option MediaAck}
    (h : handleIncomingFrame π state peers peerId frame = some (ack, state', peers')) :
    CallFor peerId state state' peers peers' := by
  cases he : ensurePeerRuntime peers peerId with
  | none =>
    simp only [handleIncomingFrame, he, Option.some.injEq, Prod.mk.injEq] at h
    obtain ⟨_, rfl, rfl⟩ := h
    exact ⟨.refl _, fun q _ => rfl⟩
  | some e =>
    obtain ⟨runtime, peers₁⟩ := e
    obtain ⟨rfl, _⟩ := ensurePeerRuntime_spec he
    simp only [handleIncomingFrame, he, Option.bind_eq_bind, Option.bind_eq_some_iff,
      Option.pure_def, Option.some.injEq, Prod.mk.injEq] at h
    obtain ⟨b, _, _, rfl, rfl⟩ := h
    refine ⟨updatePeerMedia_peersOnly _ _ _, fun q hq => ?_⟩
    rw [Function.update_of_ne hq, Function.update_of_ne hq]

theorem buildNextAudioFrame_callFor {π : Profile} {state state' : DaemonStatus}
    {peers peers' : MediaPeers κ} {peerId : String} {pcm : κ.Pcm} {nowMs : UInt64}
    {frame : Option MediaFrame}
    (h : buildNextAudioFrame π state peers peerId pcm nowMs = some (frame, state', peers')) :
    CallFor peerId state state' peers peers' ∧
      (SilentAt peers peerId → SilentAt peers' peerId) := by
  cases he : ensurePeerRuntime peers peerId with
  | none =>
    simp only [buildNextAudioFrame, he, Option.some.injEq, Prod.mk.injEq] at h
    obtain ⟨_, rfl, rfl⟩ := h
    exact ⟨⟨.refl _, fun q _ => rfl⟩, id⟩
  | some e =>
    obtain ⟨runtime, peers₁⟩ := e
    have hsilent : SilentAt peers peerId → runtime.jitter = .new := fun hs => hs.ensure he
    obtain ⟨rfl, _⟩ := ensurePeerRuntime_spec he
    simp only [buildNextAudioFrame, he, Option.bind_eq_bind, Option.bind_eq_some_iff] at h
    obtain ⟨seq, _, ts, _, h⟩ := h
    split at h <;>
    · simp only [Option.pure_def, Option.some.injEq, Prod.mk.injEq] at h
      obtain ⟨_, rfl, rfl⟩ := h
      refine ⟨⟨?_, fun q hq => ?_⟩, fun hs => ?_⟩
      · first | exact .refl _ | exact updatePeerMedia_peersOnly _ _ _
      · rw [Function.update_of_ne hq, Function.update_of_ne hq]
      · intro rt hrt
        rw [Function.update_self] at hrt
        exact Option.some.inj hrt ▸ hsilent hs

theorem playoutBurst_new {π : Profile} {gain now fuel : Nat}
    {runtime runtime' : MediaPeerRuntime κ} {pcm : List κ.Pcm}
    (hn : runtime.jitter = .new)
    (h : playoutBurst π gain now fuel runtime = some (pcm, runtime')) :
    pcm = [] ∧ runtime'.jitter = .new := by
  cases fuel with
  | zero =>
    simp only [playoutBurst, Option.some.injEq, Prod.mk.injEq] at h
    obtain ⟨rfl, rfl⟩ := h
    exact ⟨rfl, hn⟩
  | succ fuel =>
    simp only [playoutBurst, hn, decision_new, Option.bind_eq_bind, Option.bind_some,
      decodeDecision, Option.pure_def, Option.some.injEq, Prod.mk.injEq] at h
    obtain ⟨rfl, rfl⟩ := h
    exact ⟨rfl, rfl⟩

/-- A playout tick gives nobody a runtime, and a peer whose buffer is new
stays so and is not heard. -/
theorem drivePlayout_spec {π : Profile} {now : Nat} {peerIds : List String}
    {state state' : DaemonStatus} {peers peers' : MediaPeers κ} {pcm : List (String × κ.Pcm)}
    (h : drivePlayout π now peerIds state peers = some (pcm, state', peers')) :
    state.PeersOnly state' ∧ (∀ p, (peers' p).isSome → (peers p).isSome) ∧
      ∀ p, SilentAt peers p → SilentAt peers' p ∧ ∀ s, (p, s) ∉ pcm := by
  induction peerIds generalizing state peers pcm with
  | nil =>
    simp only [drivePlayout, Option.some.injEq, Prod.mk.injEq] at h
    obtain ⟨rfl, rfl, rfl⟩ := h
    exact ⟨.refl _, fun p hp => hp, fun p hp => ⟨hp, fun s => by simp⟩⟩
  | cons peerId peerIds ih =>
    cases hp : peers peerId with
    | none =>
      simp only [drivePlayout, hp] at h
      exact ih h
    | some runtime =>
      simp only [drivePlayout, hp, Option.bind_eq_bind, Option.bind_eq_some_iff] at h
      obtain ⟨⟨samples, runtime'⟩, hburst, ⟨rest, state₁, peers₁⟩, hrest, h⟩ := h
      simp only [Option.pure_def, Option.some.injEq, Prod.mk.injEq] at h
      obtain ⟨rfl, rfl, rfl⟩ := h
      obtain ⟨hstatus, hsome, hsilent⟩ := ih hrest
      refine ⟨(updatePeerMedia_peersOnly _ _ _).trans hstatus, fun p h => ?_, fun p hs => ?_⟩
      · have hup := hsome p h
        by_cases hpq : p = peerId
        · simp [hpq, hp]
        · rwa [Function.update_of_ne hpq] at hup
      · have hburst' : p = peerId → samples = [] ∧ runtime'.jitter = .new := by
          intro hpq
          subst hpq
          exact playoutBurst_new (hs runtime hp) hburst
        obtain ⟨hs', hno⟩ := hsilent p (hs.update fun hpq rt hrt =>
          Option.some.inj hrt ▸ (hburst' hpq).2)
        refine ⟨hs', fun s hm => ?_⟩
        rcases List.mem_append.mp hm with hm | hm
        · obtain ⟨t, ht, hpq⟩ := List.mem_map.mp hm
          obtain ⟨hpq, _⟩ := Prod.mk.inj hpq
          rw [(hburst' hpq.symm).1] at ht
          simp at ht
        · exact hno s hm

end

end Voicers
