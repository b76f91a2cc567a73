import Voicers.Network.Lifetime

/-! The acknowledgements of relayed media. They name the destination of the
frames, but are handled as those of the relay that passes them on. -/

namespace Voicers

open Lib

variable {κ : Codec} {lib : Libp2p}

/-- The media state of a peer after its acknowledgement. -/
def ackedMedia (ack : MediaAck) (media : PeerMediaState) : PeerMediaState :=
  { media with
    streamState := .active
    lastSequence := some ack.acceptedSequence
    queuedPackets := ack.queueDepth
    queuedSamples := ack.queuedSamples }

/-- The engine over a queue of commands. -/
def runMediaCommands (queue : List MediaCommand) (s : DaemonStatus × MediaPeers κ) :
    DaemonStatus × MediaPeers κ :=
  queue.foldl (fun s command => runMediaCommand s.1 s.2 command) s

/-- The peer, when it is listed, has the acknowledged state already. -/
def DaemonStatus.Shows (state : DaemonStatus) (peerId : String) (ack : MediaAck) : Prop :=
  ∀ peer, state.peer? peerId = some peer → ackedMedia ack peer.media = peer.media

/-- A relayed acknowledgement does to the status, once the engine has run its
commands, what one of the destination itself would have done. -/
def CreditsDestination (x : HostTransition κ lib) : Prop :=
  ∀ peer destination ack, x.input = .event (.mediaResponse peer (.relayAck destination ack)) →
    x.after.daemon.flushMedia.status =
      (x.before.daemon.onMediaResponse destination (.ack ack)).flushMedia.status

/-- The engine is gone, the destination is the relay itself, or neither has
anything to learn. -/
def AckOfTransport (x : HostTransition κ lib) : Prop :=
  ∀ peer destination ack, x.input = .event (.mediaResponse peer (.relayAck destination ack)) →
    x.before.daemon.media = none ∨ destination = peer.text ∨
      (x.before.daemon.flushMedia.status.Shows peer.text ack ∧
        x.before.daemon.flushMedia.status.Shows destination ack)

section

variable {state : DaemonStatus} {a b : String} {update : PeerMediaState → PeerMediaState}

theorem updatePeerMedia_eq_self
    (h : ∀ peer, state.peer? a = some peer → update peer.media = peer.media) :
    state.updatePeerMedia a update = state := by
  have hpeers : (state.updatePeerMedia a update).peers = state.peers :=
    updateFirst_eq_self fun peer hpeer => by rw [h peer hpeer]
  exact congrArg (fun peers => { state with peers := peers }) hpeers

/-- The same update of two peers comes to the same only where it changes neither. -/
theorem updatePeerMedia_eq_iff (hne : a ≠ b) :
    state.updatePeerMedia a update = state.updatePeerMedia b update ↔
      (∀ peer, state.peer? a = some peer → update peer.media = peer.media) ∧
        ∀ peer, state.peer? b = some peer → update peer.media = peer.media := by
  have hchanged : ∀ {p q : String}, p ≠ q →
      state.updatePeerMedia p update = state.updatePeerMedia q update →
      ∀ peer, state.peer? p = some peer → update peer.media = peer.media := by
    intro p q hpq heq peer hpeer
    have hfound : (state.updatePeerMedia p update).peer? p =
        some { peer with media := update peer.media } := by
      have h := find?_updateFirst (p := fun other : PeerSummary => other.peerId = p)
        (f := fun other => { other with media := update other.media }) (l := state.peers)
        fun _ => id
      exact h.trans (congrArg _ hpeer)
    have hkept : (state.updatePeerMedia q update).peer? p = some peer := by
      have h := find?_updateFirst_of_not (p := fun other : PeerSummary => other.peerId = q)
        (q := fun other : PeerSummary => other.peerId = p)
        (f := fun other => { other with media := update other.media }) (l := state.peers)
        (fun _ _ => rfl) fun other hother htest => by
          have hid : other.peerId = p := by simpa using List.find?_some hother
          exact hpq (hid.symm.trans (of_decide_eq_true htest))
      exact h.trans hpeer
    rw [heq, hkept] at hfound
    exact (congrArg PeerSummary.media (Option.some.inj hfound)).symm
  constructor
  · exact fun heq => ⟨hchanged hne heq, hchanged hne.symm heq.symm⟩
  · rintro ⟨ha, hb⟩
    rw [updatePeerMedia_eq_self ha, updatePeerMedia_eq_self hb]

end

namespace Daemon

variable {d : Daemon κ} {peers : MediaPeers κ}

/-- The engine runs its commands in order. -/
theorem flushMedia_status (hmedia : d.media = some peers) :
    d.flushMedia.status = (runMediaCommands d.mediaQueue (d.status, peers)).1 := by
  unfold flushMedia
  induction hqueue : d.mediaQueue generalizing d peers with
  | nil => rfl
  | cons command queue ih =>
    have hnext : d.runNextMediaCommand = { d with
        status := (runMediaCommand d.status peers command).1
        media := some (runMediaCommand d.status peers command).2
        mediaQueue := queue } := by
      simp only [runNextMediaCommand, hmedia, hqueue]
    rw [List.length_cons, Function.iterate_succ_apply, hnext]
    exact ih rfl rfl

theorem flushMedia_handleAck (hmedia : d.media = some peers) (peerId : String) (ack : MediaAck) :
    (d.queueMedia (.handleAck peerId ack)).flushMedia.status =
      d.flushMedia.status.updatePeerMedia peerId (ackedMedia ack) := by
  have hqueued : d.queueMedia (.handleAck peerId ack) =
      { d with mediaQueue := d.mediaQueue ++ [.handleAck peerId ack] } := by
    simp [queueMedia, hmedia]
  have hmedia' : (d.queueMedia (.handleAck peerId ack)).media = some peers := by
    rw [hqueued]
    exact hmedia
  rw [flushMedia_status hmedia', flushMedia_status hmedia, hqueued]
  simp only [runMediaCommands, List.foldl_append, List.foldl_cons, List.foldl_nil, runMediaCommand]
  rfl

theorem relayAck_iff (peerId destination : String) (ack : MediaAck) :
    (d.onMediaResponse peerId (.relayAck destination ack)).flushMedia.status =
        (d.onMediaResponse destination (.ack ack)).flushMedia.status ↔
      d.media = none ∨ destination = peerId ∨
        (d.flushMedia.status.Shows peerId ack ∧ d.flushMedia.status.Shows destination ack) := by
  simp only [onMediaResponse]
  cases hmedia : d.media with
  | none =>
    simp only [queueMedia, hmedia, Option.isSome_none, Bool.false_eq_true, if_false, true_or]
  | some peers =>
    rw [flushMedia_handleAck hmedia, flushMedia_handleAck hmedia]
    by_cases hsame : destination = peerId
    · simp [hsame]
    · rw [updatePeerMedia_eq_iff (Ne.symm hsame)]
      simp only [reduceCtorEq, hsame, false_or]
      exact Iff.rfl

end Daemon

variable {π : Profile} {displayName localPeerId : String} {tr : List (HostTransition κ lib)}
  {h : Host κ}

/-- The acknowledgements of relayed frames reach the peers they are about
exactly in the runs where their sender makes no difference. -/
theorem relay_acks_credited_iff (hrun : HostRun π displayName localPeerId tr h) :
    (∀ x ∈ tr, CreditsDestination x) ↔ ∀ x ∈ tr, AckOfTransport x := by
  refine forall₂_congr fun x hx => ?_
  have hstep := (hrun.of_mem (I := fun _ => True) (fun _ _ _ _ _ _ => trivial) trivial hx).2
  refine forall_congr' fun peer => forall₂_congr fun destination ack => forall_congr' fun hinput => ?_
  rw [hinput] at hstep
  obtain ⟨_, hafter⟩ := Prod.mk.inj (Option.some.inj hstep)
  rw [← hafter]
  exact Daemon.relayAck_iff peer.text destination ack

def relayedAck : MediaAck where
  acceptedSequence := 1
  queueDepth := 3
  queuedSamples := 2880

/-- A relay answers a frame with the acknowledgement of another peer. -/
def relayAckedCall : List (HostEvent silentCodec sampleLibp2p) :=
  [.event (.seedInviteHints callInvite),
    .event (.connectionEstablished remote ⟨true, "", false⟩),
    .event (.seedInviteHints { callInvite with peerId := relayPeer }),
    .event (.connectionEstablished relay ⟨true, "", false⟩),
    .event (.sessionHelloAck relay { sampleHello with trustedContacts := [remotePeer] }),
    .event (.sendMediaFrame relayPeer [] 0),
    .event (.mediaResponse relay (.relayAck remotePeer relayedAck))]

def queuedPackets (state : DaemonStatus) : List (String × Nat) :=
  state.peers.map fun peer => (peer.peerId, peer.media.queuedPackets)

theorem relayAckedCall_queues :
    (hostRun .release "local-user" localPeer relayAckedCall).map (fun r => r.1.getLast?.map fun x =>
      (queuedPackets x.after.daemon.flushMedia.status,
        queuedPackets (x.before.daemon.onMediaResponse remotePeer
          (.ack relayedAck)).flushMedia.status)) =
      some (some ([(remotePeer, 0), (relayPeer, 3)], [(remotePeer, 3), (relayPeer, 0)])) := by
  decide +kernel

theorem relayAckedCall_not_credited :
    ¬ ∀ (tr : List (HostTransition silentCodec sampleLibp2p)) (h : Host silentCodec),
      HostRun .release "local-user" localPeer tr h → ∀ x ∈ tr, CreditsDestination x := by
  intro hall
  obtain ⟨⟨tr, h⟩, hrun, hlast⟩ := Option.map_eq_some_iff.mp relayAckedCall_queues
  obtain ⟨x, hx, hqueues⟩ := Option.map_eq_some_iff.mp hlast
  have hinputs : (tr.map Transition.input).getLast? = relayAckedCall.getLast? :=
    congrArg List.getLast? (execute_inputs hrun)
  rw [List.getLast?_map, hx] at hinputs
  have hcredited := hall tr h (hostRun_trace hrun) x (List.mem_of_getLast? hx) relay remotePeer
    relayedAck (Option.some.inj hinputs)
  obtain ⟨hafter, hdirect⟩ := Prod.mk.inj hqueues
  rw [hcredited, hdirect] at hafter
  exact absurd hafter (by decide)

theorem relay_acks_credited_iff_relayAckedCall :
    ∃ tr : List (HostTransition silentCodec sampleLibp2p),
      tr.map Transition.input = relayAckedCall ∧
        ((∀ x ∈ tr, CreditsDestination x) ↔ ∀ x ∈ tr, AckOfTransport x) := by
  obtain ⟨⟨tr, h⟩, hrun, _⟩ := Option.map_eq_some_iff.mp relayAckedCall_queues
  exact ⟨tr, execute_inputs hrun, relay_acks_credited_iff (hostRun_trace hrun)⟩

end Voicers
