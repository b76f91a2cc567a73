import Voicers.Network.Ticks

/-! What is left of a call when one connection of the peer closes. The peer
may have other connections, or a relay may still reach it; the flow and the
media runtime are gone in either case. -/

namespace Voicers

open Lib

variable {κ : Codec} {lib : Libp2p}

namespace Daemon

/-- As long as the peer can be reached after the event, its flow is still
there and the engine has kept its runtime, also once it has read its queue. -/
def KeepsCall (π : Profile) (d : Daemon κ) (peer : PeerId lib) (numEstablished : Nat) : Prop :=
  let d' := (d.handle π lib (.connectionClosed peer numEstablished)).1
  (0 < numEstablished ∨ resolveRoute lib d'.status d'.relayOffers peer.text ≠ .unreachable) →
    peer.text ∈ d'.activeMediaFlows ∧
      d'.flushMedia.runtime peer.text = d.flushMedia.runtime peer.text

theorem queueMedia_relayOffers (d : Daemon κ) (command : MediaCommand) :
    (d.queueMedia command).relayOffers = d.relayOffers := by
  obtain ⟨_, _, _, h, _⟩ := d.queueMedia_mediaOnly command
  rw [h]

theorem onConnectionClosed_status (d : Daemon κ) (peerId : String) (n : Nat) :
    (d.onConnectionClosed peerId n).status = closeStatus d.status peerId n := by
  simp only [onConnectionClosed, queueMedia_status, withStatus]
  split_ifs <;> rfl

theorem onConnectionClosed_relayOffers (d : Daemon κ) (peerId : String) :
    (d.onConnectionClosed peerId 0).relayOffers = Function.update d.relayOffers peerId none := by
  simp only [onConnectionClosed, queueMedia_relayOffers, withStatus, if_true]

theorem runNextMediaCommand_cons {d : Daemon κ} {peers : MediaPeers κ} {command : MediaCommand}
    {queue : List MediaCommand} (hm : d.media = some peers)
    (hq : d.mediaQueue = command :: queue) :
    d.runNextMediaCommand.media = some (runMediaCommand d.status peers command).2 ∧
      d.runNextMediaCommand.mediaQueue = queue := by
  simp only [runNextMediaCommand, hm, hq, and_self]

theorem runNextMediaCommand_iterate (d : Daemon κ) (hm : d.media.isSome) (n : Nat) :
    (runNextMediaCommand^[n] d).media.isSome ∧
      (runNextMediaCommand^[n] d).mediaQueue = d.mediaQueue.drop n := by
  induction n with
  | zero => exact ⟨hm, rfl⟩
  | succ n ih =>
    rw [Function.iterate_succ_apply', ← List.tail_drop, ← ih.2]
    generalize runNextMediaCommand^[n] d = b at ih ⊢
    obtain ⟨peers, hpeers⟩ := Option.isSome_iff_exists.mp ih.1
    cases hq : b.mediaQueue with
    | nil => simp [runNextMediaCommand, hpeers, hq]
    | cons command queue => simp [runNextMediaCommand_cons hpeers hq]

theorem flushMedia_concat {d : Daemon κ} (hm : d.media.isSome) {queue : List MediaCommand}
    {command : MediaCommand} (hq : d.mediaQueue = queue ++ [command]) :
    ∃ status peers, d.flushMedia.media = some (runMediaCommand status peers command).2 := by
  obtain ⟨hsome, hqueue⟩ := d.runNextMediaCommand_iterate hm queue.length
  obtain ⟨peers, hpeers⟩ := Option.isSome_iff_exists.mp hsome
  rw [hq, List.drop_left] at hqueue
  refine ⟨(runNextMediaCommand^[queue.length] d).status, peers, ?_⟩
  rw [flushMedia, hq, List.length_append, List.length_singleton, Function.iterate_succ_apply']
  exact (runNextMediaCommand_cons hpeers hqueue).1

theorem queueMedia_disconnectPeer_runtime (d : Daemon κ) (peerId : String) :
    (d.queueMedia (.disconnectPeer peerId)).flushMedia.runtime peerId = none := by
  by_cases hm : d.media.isSome
  · rw [queueMedia, if_pos hm]
    obtain ⟨status, peers, h⟩ := flushMedia_concat
      (d := { d with mediaQueue := d.mediaQueue ++ [.disconnectPeer peerId] }) hm rfl
    simp [runtime, h, runMediaCommand]
  · rw [queueMedia, if_neg hm]
    have hstopped : d.flushMedia.media = none := by
      refine flushMedia_induction (R := fun a b => a.media = none → b.media = none)
        (fun _ => id) (fun _ _ _ hab hbc ha => hbc (hab ha)) (fun b hb => ?_) d (by simpa using hm)
      simp [runNextMediaCommand, hb]
    rw [runtime, hstopped]
    rfl

end Daemon

theorem relayCandidates_closeStatus (state : DaemonStatus) (offers : String → Option (List String))
    (peerId : String) :
    relayCandidates (Daemon.closeStatus state peerId 0) (Function.update offers peerId none) peerId =
      (relayCandidates state offers peerId).filter (fun c => c.1.peerId ≠ peerId) := by
  have hgone : ∀ c : KnownPeerSummary, decide (c.peerId = peerId) = true →
      Function.update offers peerId none c.peerId = none := by
    intro c hc
    rw [of_decide_eq_true hc, Function.update_self]
  simp only [relayCandidates, Daemon.closeStatus]
  rw [filter_updateFirst (fun c hc => by simp [hgone c hc]) (fun c hc => by simp [hgone c hc])]
  rw [List.filter_map, List.filter_filter]
  congr 1
  refine List.filter_congr fun c _ => ?_
  by_cases hc : c.peerId = peerId
  · simp [hc]
  · simp [hc]

theorem resolveRoute_closeStatus (lib : Libp2p) (state : DaemonStatus)
    (offers : String → Option (List String)) (peerId : String) :
    resolveRoute lib (Daemon.closeStatus state peerId 0) (Function.update offers peerId none)
        peerId =
      relayRoute lib ((relayCandidates state offers peerId).filter (fun c => c.1.peerId ≠ peerId))
        peerId := by
  have hknown : (Daemon.closeStatus state peerId 0).knownPeer? peerId =
      (state.knownPeer? peerId).map fun p => { p with connected := false } := by
    exact find?_updateFirst fun p hp => hp
  rw [← relayCandidates_closeStatus]
  unfold resolveRoute
  rw [hknown]
  cases state.knownPeer? peerId with
  | none => rfl
  | some peer => rfl

/-- Closing any connection ends the call, so it is harmless exactly when the
connection was the last one and no relay is left that reaches the peer. -/
theorem closing_keeps_call_iff (π : Profile) (d : Daemon κ) (peer : PeerId lib)
    (numEstablished : Nat) :
    d.KeepsCall π peer numEstablished ↔
      numEstablished = 0 ∧
        relayRoute lib ((relayCandidates d.status d.relayOffers peer.text).filter
          (fun c => c.1.peerId ≠ peer.text)) peer.text = .unreachable := by
  have hgone : peer.text ∉ (d.onConnectionClosed peer.text numEstablished).activeMediaFlows := by
    rw [(d.onConnectionClosed_flows peer.text numEstablished).1]
    simp
  have hvoid : d.KeepsCall π peer numEstablished ↔
      ¬ (0 < numEstablished ∨ resolveRoute lib (d.onConnectionClosed peer.text numEstablished).status
        (d.onConnectionClosed peer.text numEstablished).relayOffers peer.text ≠ .unreachable) :=
    ⟨fun h hreach => hgone (h hreach).1, fun h hreach => absurd hreach h⟩
  rw [hvoid, not_or, not_lt, Nat.le_zero, not_not]
  refine and_congr_right fun hzero => ?_
  subst hzero
  rw [d.onConnectionClosed_status, d.onConnectionClosed_relayOffers, resolveRoute_closeStatus]

/-- A call over two connections: a relayed one and the direct one that
replaces it. The first tick has been sent. -/
def upgradedCall : List (Event silentCodec sampleLibp2p) :=
  [.connectionEstablished remote { incoming with isRelayed := true },
    .sessionHello remote sampleHello 0, .connectionEstablished remote incoming,
    .sendMediaFrame remotePeer [] 0]

theorem upgradedCall_hangs_up :
    ∃ tr d, daemonRun .release sampleLibp2p (sampleStatus friendBook)
        upgradedCall = some (tr, d) ∧
      remotePeer ∈ d.activeMediaFlows ∧
      (d.runtime remotePeer).map MediaPeerRuntime.nextSendSequence = some 2 ∧
      (d.onConnectionClosed remotePeer 1).flushMedia.runtime remotePeer = none ∧
      ¬ d.KeepsCall .release remote 1 := by
  have h : (daemonRun .release sampleLibp2p (sampleStatus friendBook)
      upgradedCall).map (fun r => (decide (remotePeer ∈ r.2.activeMediaFlows),
        (r.2.runtime remotePeer).map MediaPeerRuntime.nextSendSequence)) =
      some (true, some 2) := by decide +kernel
  obtain ⟨⟨tr, d⟩, hrun, hd⟩ := Option.map_eq_some_iff.mp h
  obtain ⟨hin, hseq⟩ := Prod.mk.inj hd
  refine ⟨tr, d, hrun, of_decide_eq_true hin, hseq,
    Daemon.queueMedia_disconnectPeer_runtime _ _, fun hkeeps => ?_⟩
  have hflow := (hkeeps (.inl Nat.one_pos)).1
  simp [Daemon.handle, (d.onConnectionClosed_flows _ _).1] at hflow

end Voicers
