import Voicers.Network.Mesh
import Voicers.Media.Receive
import Voicers.Network.DaemonFlow

/-! Relayed frames in a network of daemons: a frame travels over at most one
relay, which hands it to the peer it names; but the receiver keys it by the
relay, the only peer it sees. -/

namespace Voicers

open Lib

variable {κ : Codec} {lib : Libp2p}

/-- `sent` is the forward of the message `received`, from a daemon in the
state of `m`: it goes to the peer the frame is for, which is not the forwarder
itself, but connected to it and trusted. -/
structure Forwards (m : Mesh κ lib) (received sent : MediaMessage lib) : Prop where
  sender : sent.sender.text = received.receiver
  request : sent.request = received.request
  addressed : ∃ frame, sent.request = .relayedFrame sent.receiver frame
  elsewhere : sent.receiver ≠ sent.sender.text
  connected : sent.receiver ∈ (m.daemons sent.sender).connectedPeers
  trusted : (m.daemons sent.sender).status.network.knownPeers.any
    (fun p => p.peerId = sent.receiver && p.trustedContact) = true
  origin : sent.origin = received.origin
  first : received.hops = 0 ∧ sent.hops = 1

/-- What is on its way comes from the daemon that built it, or from a relay
and goes to the peer it is for. -/
def MediaMessage.WellSent (message : MediaMessage lib) : Prop :=
  (message.hops = 0 ∧ message.sender = message.origin) ∨
    (message.hops = 1 ∧ ∃ frame, message.request = .relayedFrame message.receiver frame)

structure MeshInvariant (m : Mesh κ lib) : Prop where
  ownId : ∀ p, (m.daemons p).status.localPeerId = p.text
  wellSent : ∀ message ∈ m.inFlight, message.WellSent

theorem onMediaRequest_sends {π : Profile} {d : Daemon κ} {peerId receiver : String}
    {request sent : MediaRequest}
    (h : .sendMedia receiver sent ∈ (d.onMediaRequest π lib peerId request).2) :
    sent = request ∧ (∃ frame, sent = .relayedFrame receiver frame) ∧
      receiver ≠ d.status.localPeerId ∧ receiver ∈ d.connectedPeers ∧
      d.status.network.knownPeers.any (fun p => p.peerId = receiver && p.trustedContact) = true := by
  cases request with
  | frame frame =>
    simp only [Daemon.onMediaRequest] at h
    split at h
    · simp at h
    · simp at h
  | relayedFrame destination frame =>
    simp only [Daemon.onMediaRequest] at h
    split_ifs at h with hown hrelay
    · simp only at h
      split at h
      · simp at h
      · simp at h
    · simp only [List.mem_cons, Effect.sendMedia.injEq, reduceCtorEq, List.not_mem_nil,
        or_false] at h
      obtain ⟨rfl, rfl⟩ := h
      exact ⟨rfl, ⟨frame, rfl⟩, hown, hrelay.2.1, hrelay.2.2⟩
    · simp at h

section

variable {m : Mesh κ lib}

theorem meshInvariant_start (books : PeerId lib → PersistedState) (displayName : String) :
    MeshInvariant (Mesh.start books displayName : Mesh κ lib) where
  ownId _ := rfl
  wellSent _ h := by simp [Mesh.start] at h

theorem MeshInvariant.forwards (h : MeshInvariant m) {π : Profile} {received sent : MediaMessage lib}
    {node : PeerId lib} (hreceived : received ∈ m.inFlight) (hnode : received.receiver = node.text)
    (hsent : sent ∈ mediaMessages received.origin node (received.hops + 1)
      ((m.daemons node).handle π lib (.mediaRequest received.sender received.request)).2) :
    Forwards m received sent := by
  obtain ⟨heffect, horigin, hsender, hhops⟩ := mem_mediaMessages.mp hsent
  obtain ⟨hrequest, ⟨frame, hframe⟩, hother, hconnected, htrusted⟩ := onMediaRequest_sends heffect
  have hfirst : received.hops = 0 := by
    rcases h.wellSent received hreceived with ⟨hzero, _⟩ | ⟨_, own, hown⟩
    · exact hzero
    · -- a message that was forwarded is for this daemon, and goes no further
      have hsame : received.receiver = sent.receiver := by
        rw [hrequest, hown] at hframe
        exact (MediaRequest.relayedFrame.inj hframe).1
      exact absurd (hsame.symm.trans (hnode.trans (h.ownId node).symm)) hother
  exact {
    sender := by rw [hsender, hnode]
    request := hrequest
    addressed := ⟨frame, hframe⟩
    elsewhere := by rwa [hsender, ← h.ownId node]
    connected := by rwa [hsender]
    trusted := by rwa [hsender]
    origin := horigin
    first := ⟨hfirst, by rw [hhops, hfirst]⟩ }

theorem MeshInvariant.handleAt (h : MeshInvariant m) (π : Profile) {node origin : PeerId lib}
    {hops : Nat} {event : Event κ lib} {inFlight : List (MediaMessage lib)}
    (hflight : ∀ message ∈ inFlight, message ∈ m.inFlight)
    (hsent : ∀ sent ∈ mediaMessages origin node hops ((m.daemons node).handle π lib event).2,
      sent.WellSent) :
    MeshInvariant (Mesh.handleAt π { m with inFlight := inFlight } node origin hops event).2 where
  ownId p := by
    simp only [Mesh.handleAt]
    by_cases hp : p = node
    · rw [hp, Function.update_self, Daemon.handle_localPeerId]
      exact h.ownId node
    · rw [Function.update_of_ne hp]
      exact h.ownId p
  wellSent message hm := by
    rcases List.mem_append.mp hm with hm | hm
    · exact h.wellSent message (hflight message hm)
    · exact hsent message hm

theorem MeshInvariant.step {π : Profile} {x : MeshTransition κ lib} (h : MeshInvariant x.before)
    (hstep : meshStep π x.before x.input = some (x.output, x.after)) : MeshInvariant x.after := by
  rcases meshStep_cases hstep with ⟨node, event, _, _, heq⟩ |
    ⟨index, received, node, _, htaken, hnode, heq⟩ | ⟨index, _, _, heq⟩
  · rw [(Prod.mk.inj heq).2]
    refine h.handleAt π (fun _ => id) fun sent hsent => ?_
    obtain ⟨_, horigin, hsender, hhops⟩ := mem_mediaMessages.mp hsent
    exact .inl ⟨hhops, hsender.trans horigin.symm⟩
  · rw [(Prod.mk.inj heq).2]
    refine h.handleAt π (fun _ => List.mem_of_mem_eraseIdx) fun sent hsent => ?_
    have hforward := h.forwards (List.mem_of_getElem? htaken) hnode hsent
    exact .inr ⟨hforward.first.2, hforward.addressed⟩
  · rw [heq]
    exact ⟨h.ownId, fun message hm => h.wellSent message (List.mem_of_mem_eraseIdx hm)⟩

/-- A delivered request is handed over to the engine under the id of its
sender, or leaves the daemon as it is. -/
theorem mediaRequest_hands_over (π : Profile) (d : Daemon κ) (peer : PeerId lib)
    (request : MediaRequest) :
    (∃ frame, (request = .frame frame ∨ request = .relayedFrame d.status.localPeerId frame) ∧
      (d.handle π lib (.mediaRequest peer request)).1 = (d.callMedia fun status peers =>
        handleIncomingFrame π status peers peer.text frame).2) ∨
    (∀ key, ¬ d.Delivers (.mediaRequest peer request : Event κ lib) key) ∧
      (d.handle π lib (.mediaRequest peer request)).1 = d := by
  cases request with
  | frame frame => exact .inl ⟨frame, .inl rfl, rfl⟩
  | relayedFrame destination frame =>
    simp only [Daemon.handle, Daemon.onMediaRequest, Daemon.Delivers]
    by_cases hown : destination = d.status.localPeerId
    · subst hown
      rw [if_pos rfl]
      exact .inl ⟨frame, .inr rfl, rfl⟩
    · rw [if_neg hown]
      refine .inr ⟨fun key hkey => hown hkey.2, ?_⟩
      split_ifs
      · rfl
      · rfl

end

/-- What is sent on is forwarded, for the first time, to the peer it is for,
and not by that peer. -/
structure SingleHop (x : MeshTransition κ lib) : Prop where
  forwards : ∀ received node, DeliversTo x received node →
    ∀ sent ∈ x.output, Forwards x.before received sent
  destination : ∀ received node frame, DeliversTo x received node →
    received.request = .relayedFrame node.text frame → x.output = []
  once : ∀ sent ∈ x.output, sent.hops ≤ 1

/-- A frame that is handed over to the engine enters the buffer of the daemon
that built it. -/
def KeepsOrigin (x : MeshTransition κ lib) : Prop :=
  ∀ message node key, DeliversTo x message node →
    (x.before.daemons node).Delivers
      (.mediaRequest message.sender message.request : Event κ lib) key →
    key = message.origin.text

/-- A relayed frame reaches the peer it is for only from the daemon that built
it. -/
def ComesStraight (x : MeshTransition κ lib) : Prop :=
  ∀ message node frame, DeliversTo x message node →
    message.request = .relayedFrame node.text frame → message.sender = message.origin

section

variable {π : Profile} {books : PeerId lib → PersistedState} {displayName : String}
  {events : List (MeshEvent κ lib)} {tr : List (MeshTransition κ lib)} {m : Mesh κ lib}
  {x : MeshTransition κ lib}

theorem meshRun_mem (h : meshRun π books displayName events = some (tr, m)) (hx : x ∈ tr) :
    MeshInvariant x.before ∧ meshStep π x.before x.input = some (x.output, x.after) := by
  refine (execute_trace h).of_mem (I := MeshInvariant) ?_ (meshInvariant_start books displayName) hx
  intro before input output after hi hstep
  exact MeshInvariant.step (x := ⟨before, input, output, after⟩) hi hstep

theorem DeliversTo.sent {received : MediaMessage lib} {node : PeerId lib}
    (h : DeliversTo x received node)
    (hstep : meshStep π x.before x.input = some (x.output, x.after)) :
    received ∈ x.before.inFlight ∧
      x.output = mediaMessages received.origin node (received.hops + 1)
        ((x.before.daemons node).handle π lib
          (.mediaRequest received.sender received.request)).2 := by
  obtain ⟨⟨index, hinput, htaken⟩, hreceiver⟩ := h
  refine ⟨List.mem_of_getElem? htaken, ?_⟩
  rcases meshStep_cases hstep with ⟨_, _, hin, _⟩ | ⟨index', received', node', hin, htaken', hnode, heq⟩ |
    ⟨_, hin, _⟩
  · rw [hinput] at hin
    cases hin
  · rw [hinput] at hin
    cases hin
    rw [htaken] at htaken'
    cases htaken'
    obtain rfl : node = node' := PeerId.ext_text (hreceiver.symm.trans hnode)
    exact (Prod.mk.inj heq).1
  · rw [hinput] at hin
    cases hin

/-- In every run a frame is forwarded at most once, by a relay that trusts and
is connected to the peer the frame is for, to that peer. -/
theorem relays_single_hop (h : meshRun π books displayName events = some (tr, m)) :
    (∀ x ∈ tr, SingleHop x) ∧ ∀ message ∈ m.inFlight, message.hops ≤ 1 := by
  have hsmall : ∀ message : MediaMessage lib, message.WellSent → message.hops ≤ 1 := by
    rintro message (⟨hzero, _⟩ | ⟨hone, _⟩)
    · omega
    · omega
  constructor
  · intro x hx
    obtain ⟨hi, hstep⟩ := meshRun_mem h hx
    have hforwards : ∀ received node, DeliversTo x received node →
        ∀ sent ∈ x.output, Forwards x.before received sent := by
      intro received node hd sent hsent
      obtain ⟨hin, hout⟩ := hd.sent hstep
      exact hi.forwards hin hd.receiver (hout ▸ hsent)
    refine ⟨hforwards, ?_, ?_⟩
    · intro received node frame hd hrequest
      by_contra hne
      obtain ⟨sent, hsent⟩ := List.exists_mem_of_ne_nil _ hne
      have hforward := hforwards received node hd sent hsent
      obtain ⟨frame', haddressed⟩ := hforward.addressed
      rw [hforward.request, hrequest] at haddressed
      have hself : node.text = sent.receiver := (MediaRequest.relayedFrame.inj haddressed).1
      exact hforward.elsewhere (hself.symm.trans (hd.receiver.symm.trans hforward.sender.symm))
    · intro sent hsent
      rcases meshStep_cases hstep with ⟨node, event, _, _, heq⟩ |
        ⟨index, received, node, hin, htaken, hnode, _⟩ | ⟨_, _, hnone, _⟩
      · rw [(Prod.mk.inj heq).1] at hsent
        have hzero := (mem_mediaMessages.mp hsent).2.2.2
        omega
      · have hforward := hforwards received node ⟨⟨index, hin, htaken⟩, hnode⟩ sent hsent
        exact hforward.first.2.le
      · rw [hnone] at hsent
        cases hsent
  · intro message hm
    have hi : MeshInvariant m := (execute_trace h).invariant (fun before input output after hi hstep =>
      MeshInvariant.step (x := ⟨before, input, output, after⟩) hi hstep)
      (meshInvariant_start books displayName)
    exact hsmall message (hi.wellSent message hm)

theorem keepsOrigin_iff (hi : MeshInvariant x.before)
    (hstep : meshStep π x.before x.input = some (x.output, x.after)) :
    KeepsOrigin x ↔ ComesStraight x := by
  constructor
  · intro hkeep message node frame hd hrequest
    apply PeerId.ext_text
    apply hkeep message node message.sender.text hd
    rw [hrequest]
    exact ⟨rfl, (hi.ownId node).symm⟩
  · intro hstraight message node key hd hdelivers
    obtain ⟨hin, _⟩ := hd.sent hstep
    cases hrequest : message.request with
    | frame frame =>
      rw [hrequest] at hdelivers
      have hkey : message.sender.text = key := hdelivers
      rcases hi.wellSent message hin with ⟨_, hsender⟩ | ⟨_, _, hrelayed⟩
      · rw [← hkey, hsender]
      · rw [hrequest] at hrelayed
        cases hrelayed
    | relayedFrame destination frame =>
      rw [hrequest] at hdelivers
      obtain ⟨hkey, hown⟩ := hdelivers
      rw [hi.ownId node] at hown
      rw [← hkey, hstraight message node frame hd (hown ▸ hrequest)]

/-- The frames of a run enter the buffers of the daemons that built them
exactly when no relayed frame reaches its destination from another daemon. -/
theorem relayed_audio_keeps_origin_iff (h : meshRun π books displayName events = some (tr, m)) :
    (∀ x ∈ tr, KeepsOrigin x) ↔ ∀ x ∈ tr, ComesStraight x := by
  constructor
  · intro hall x hx
    obtain ⟨hi, hstep⟩ := meshRun_mem h hx
    exact (keepsOrigin_iff hi hstep).mp (hall x hx)
  · intro hall x hx
    obtain ⟨hi, hstep⟩ := meshRun_mem h hx
    exact (keepsOrigin_iff hi hstep).mpr (hall x hx)

theorem one_sender_per_buffer {y : MeshTransition κ lib} (hx : KeepsOrigin x) (hy : KeepsOrigin y)
    {a b : MediaMessage lib} {node : PeerId lib} {key : String} (ha : DeliversTo x a node)
    (hb : DeliversTo y b node)
    (hka : (x.before.daemons node).Delivers (.mediaRequest a.sender a.request : Event κ lib) key)
    (hkb : (y.before.daemons node).Delivers (.mediaRequest b.sender b.request : Event κ lib) key) :
    a.origin = b.origin :=
  PeerId.ext_text ((hx a node key ha hka).symm.trans (hy b node key hb hkb))

end

def localNode : PeerId sampleLibp2p := ⟨localPeer, by decide⟩

def trustedFriend (peerId : String) : KnownPeerSummary where
  peerId := peerId
  displayName := "friend"
  addresses := []
  lastDialAddr := none
  connected := false
  pinned := true
  seen := true
  whitelisted := true
  trustedContact := true

/-- Three friends; the remote one has been forgotten and so is never marked as
connected. -/
def friendsBook : PersistedState :=
  { emptyBook with
    knownPeers := [trustedFriend localPeer, trustedFriend relayPeer, trustedFriend remotePeer]
    ignoredPeerIds := [remotePeer] }

/-- A frame for the remote daemon goes from the local one over the relay. -/
def relayedCall : List (MeshEvent silentCodec sampleLibp2p) :=
  [.outside localNode (.connectionEstablished relay incoming),
    .outside localNode (.sessionHello relay { sampleHello with trustedContacts := [remotePeer] } 0),
    .outside localNode (.sessionHello remote sampleHello 1),
    .outside relay (.connectionEstablished remote incoming),
    .outside localNode (.sendMediaFrame remotePeer [1, 2, 3] 0),
    .deliver 0, .deliver 0]

def MediaRequest.destination? : MediaRequest → Option String
  | .frame _ => none
  | .relayedFrame destination _ => some destination

/-- The message is a relayed frame that its relay sends to its destination. -/
def MediaMessage.isRelayed (message : MediaMessage lib) : Bool :=
  message.sender ≠ message.origin && message.request.destination? = some message.receiver

def arrivesByRelay (x : MeshTransition κ lib) : Bool :=
  match x.input with
  | .deliver index => x.before.inFlight[index]?.any fun message =>
      lib.isPeerId message.receiver && message.isRelayed
  | _ => false

theorem not_comesStraight {x : MeshTransition κ lib} (h : arrivesByRelay x = true) :
    ¬ ComesStraight x := by
  intro hstraight
  cases hin : x.input with
  | deliver index =>
    simp only [arrivesByRelay, hin, Option.any_eq_true] at h
    obtain ⟨message, htaken, hmessage⟩ := h
    simp only [MediaMessage.isRelayed, Bool.and_eq_true, decide_eq_true_eq] at hmessage
    obtain ⟨hvalid, hother, hdestination⟩ := hmessage
    cases hrequest : message.request with
    | frame frame => simp [hrequest, MediaRequest.destination?] at hdestination
    | relayedFrame destination frame =>
      simp only [hrequest, MediaRequest.destination?, Option.some.injEq] at hdestination
      subst hdestination
      exact hother (hstraight message ⟨message.receiver, hvalid⟩ frame
        ⟨⟨index, hin, htaken⟩, rfl⟩ hrequest)
  | _ => simp [arrivesByRelay, hin] at h

theorem relayedCall_loses_origin :
    ∃ tr m, meshRun .release (fun _ => friendsBook) "local-user" relayedCall = some (tr, m) ∧
      (((m.daemons remote).runtime relayPeer).map fun r => r.jitter.pending.length) = some 1 ∧
      ¬ ∀ x ∈ tr, KeepsOrigin x := by
  have h : (meshRun .release (fun _ => friendsBook) "local-user" relayedCall).map (fun r =>
      (r.1.getLast?.any arrivesByRelay,
        ((r.2.daemons remote).runtime relayPeer).map fun r => r.jitter.pending.length)) =
      some (true, some 1) := by decide +kernel
  obtain ⟨⟨tr, m⟩, hrun, hm⟩ := Option.map_eq_some_iff.mp h
  obtain ⟨hlast, hbuffer⟩ := Prod.mk.inj hm
  refine ⟨tr, m, hrun, hbuffer, fun hall => ?_⟩
  obtain ⟨x, hx, harrives⟩ := (Option.any_eq_true _ _).mp hlast
  have hmem : x ∈ tr := List.mem_of_getLast? hx
  obtain ⟨hi, hstep⟩ := meshRun_mem hrun hmem
  exact not_comesStraight harrives ((keepsOrigin_iff hi hstep).mp (hall x hmem))

theorem relayed_audio_keeps_origin_iff_relayedCall :
    ∃ tr m, meshRun .release (fun _ => friendsBook) "local-user" relayedCall = some (tr, m) ∧
      ((∀ x ∈ tr, KeepsOrigin x) ↔ ∀ x ∈ tr, ComesStraight x) := by
  obtain ⟨⟨tr, m⟩, hrun⟩ := Option.isSome_iff_exists.mp
    (show (meshRun .release (fun _ => friendsBook) "local-user" relayedCall).isSome by
      decide +kernel)
  exact ⟨tr, m, hrun, relayed_audio_keeps_origin_iff hrun⟩

theorem relays_single_hop_relayedCall :
    ∃ tr m, meshRun .release (fun _ => friendsBook) "local-user" relayedCall = some (tr, m) ∧
      (∀ x ∈ tr, SingleHop x) ∧ ∀ message ∈ m.inFlight, message.hops ≤ 1 := by
  obtain ⟨⟨tr, m⟩, hrun⟩ := Option.isSome_iff_exists.mp
    (show (meshRun .release (fun _ => friendsBook) "local-user" relayedCall).isSome by
      decide +kernel)
  exact ⟨tr, m, hrun, relays_single_hop hrun⟩

end Voicers
