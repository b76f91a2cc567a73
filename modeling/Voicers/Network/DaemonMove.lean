import Voicers.Network.DaemonStep

/-! Everything an event can do to the flows, the media engine and the list of
peers, said once. The results about runs follow from `handle_move` without
looking at the handlers again. -/

namespace Voicers

open Lib

variable {κ : Codec} {lib : Libp2p}

namespace Daemon

def SameFlows (d d' : Daemon κ) : Prop :=
  d'.activeMediaFlows = d.activeMediaFlows ∧ d'.mediaTicks = d.mediaTicks

def SameEngine (d d' : Daemon κ) : Prop :=
  d'.media = d.media ∧ d'.mediaQueue = d.mediaQueue

def SamePeers (d d' : Daemon κ) : Prop := d'.status.peerIds = d.status.peerIds

/-- No difference that the results about runs look at. -/
structure Agrees (d d' : Daemon κ) : Prop where
  flows : SameFlows d d'
  engine : SameEngine d d'
  peers : SamePeers d d'

def Queues (command : MediaCommand) (d d' : Daemon κ) : Prop :=
  SameEngine (d.queueMedia command) d'

def Lists (peerId : String) (d d' : Daemon κ) : Prop :=
  ∀ q ∈ d'.status.peerIds, q ∈ d.status.peerIds ∨ q = peerId

/-- The event neither applies a hello nor closes a connection. -/
def Neutral (d : Daemon κ) (e : Event κ lib) : Prop :=
  (∀ p, ¬ d.Admits e p) ∧ ∀ peer n, e ≠ .connectionClosed peer n

inductive Move (d : Daemon κ) (e : Event κ lib) (d' : Daemon κ) : Prop
  | quiet : d.Neutral e → Agrees d d' → Move d e d'
  | identified {p : String} : d.Identifies e p → SameFlows d d' → SameEngine d d' →
      Lists p d d' → Move d e d'
  | surfaced {p : String} : d.Surfaces e p → SameFlows d d' → Queues (.registerPeer p) d d' →
      Lists p d d' → Move d e d'
  | admitted {p : String} : d.Admits e p → SameFlows (d.openFlow p) d' →
      Queues (.registerPeer p) d d' → Lists p d d' → Move d e d'
  | closed {peer : PeerId lib} {n : Nat} : e = .connectionClosed peer n →
      d'.activeMediaFlows = d.activeMediaFlows.erase peer.text → d'.mediaTicks = d.mediaTicks →
      Queues (.disconnectPeer peer.text) d d' → d'.status.peerIds ⊆ d.status.peerIds → Move d e d'
  | engine : d.Neutral e → SameFlows d d' → SamePeers d d' → (∀ p, Spares p d d') → Move d e d'
  | delivered {p : String} : d.Delivers e p → SameFlows d d' → SamePeers d d' →
      (∀ q, q ≠ p → Spares q d d') → Move d e d'
  | ticked {p : String} {pcm : κ.Pcm} {nowMs : UInt64} : e = .sendMediaFrame p pcm nowMs →
      p ∈ d.activeMediaFlows → SameFlows d d' → SamePeers d d' → (∀ q, q ≠ p → Spares q d d') →
      (d.Silent p → d'.Silent p) → Move d e d'
  | spent {p : String} {pcm : κ.Pcm} {nowMs : UInt64} : e = .sendMediaFrame p pcm nowMs →
      0 < d.mediaTicks p → d'.activeMediaFlows = d.activeMediaFlows.erase p →
      d'.mediaTicks = Function.update d.mediaTicks p (d.mediaTicks p - 1) →
      SameEngine d d' → SamePeers d d' → Move d e d'

theorem MediaOnly.sameFlows {d d' : Daemon κ} (h : d.MediaOnly d') : SameFlows d d' := by
  obtain ⟨_, _, _, rfl, _⟩ := h
  exact ⟨rfl, rfl⟩

theorem MediaOnly.samePeers {d d' : Daemon κ} (h : d.MediaOnly d') : SamePeers d d' := by
  obtain ⟨_, _, _, rfl, hs⟩ := h
  exact hs.peerIds

section

variable {d d' : Daemon κ} {e : Event κ lib}

theorem BookOnly.move (h : d.BookOnly d') (hn : d.Neutral e) : Move d e d' := by
  obtain ⟨_, _, _, rfl⟩ := h
  exact .quiet hn ⟨⟨rfl, rfl⟩, ⟨rfl, rfl⟩, rfl⟩

theorem MediaOnly.move (h : d.MediaOnly d') (hn : d.Neutral e) (hs : ∀ p, Spares p d d') :
    Move d e d' :=
  .engine hn h.sameFlows h.samePeers hs

end

section

variable {state : DaemonStatus} {peerId q : String}

theorem mem_peerIds_updateOrPush {f : PeerSummary → PeerSummary} {new : PeerSummary}
    (hf : ∀ p, (f p).peerId = p.peerId) (hnew : new.peerId = peerId)
    (h : q ∈ ({ state with
      peers := updateOrPush (fun p => p.peerId = peerId) f new state.peers } :
        DaemonStatus).peerIds) : q ∈ state.peerIds ∨ q = peerId := by
  obtain ⟨p, hp, rfl⟩ := List.mem_map.mp h
  rcases mem_updateOrPush hp with hp | ⟨a, ha, _, rfl⟩ | ⟨_, rfl⟩
  · exact .inl (List.mem_map_of_mem hp)
  · rw [hf]
    exact .inl (List.mem_map_of_mem ha)
  · rw [hf]
    exact .inr hnew

theorem updateKnownPeer_peerIds (address displayName : Option String) (connected seen : Bool) :
    (updateKnownPeer lib state peerId address displayName connected seen).peerIds =
      state.peerIds := by
  obtain ⟨network, h⟩ :=
    updateKnownPeer_network lib state peerId address displayName connected seen
  rw [h]
  rfl

theorem mem_peerIds_upsertPeer {address : String}
    (h : q ∈ (upsertPeer lib state peerId address).peerIds) :
    q ∈ state.peerIds ∨ q = peerId := by
  simp only [upsertPeer, getOrInsertPeer] at h
  split at h
  · exact mem_peerIds_updateOrPush (fun _ => by rfl) (by rfl) h
  · split_ifs at h
    · rw [updateKnownPeer_peerIds] at h
      exact mem_peerIds_updateOrPush (fun _ => by rfl) (by rfl) h
    · rw [updateKnownPeer_peerIds] at h
      exact mem_peerIds_updateOrPush (fun _ => by rfl) (by rfl) h

theorem mem_peerIds_applySessionHello {hello : SessionHello}
    (h : q ∈ (applySessionHello lib state peerId hello).peerIds) :
    q ∈ state.peerIds ∨ q = peerId := by
  simp only [applySessionHello] at h
  split at h
  · exact mem_peerIds_updateOrPush (fun _ => by rfl) (by rfl) h
  · rw [updateKnownPeer_peerIds] at h
    exact mem_peerIds_updateOrPush (fun _ => by rfl) (by rfl) h

theorem closeStatus_peerIds (n : Nat) :
    (closeStatus state peerId n).peerIds ⊆ state.peerIds := by
  simp only [closeStatus, DaemonStatus.peerIds]
  split_ifs
  · exact (List.eraseP_sublist.map PeerSummary.peerId).subset
  · rw [map_updateFirst fun _ _ => by rfl]
    exact fun _ => id
  · rw [map_updateFirst fun _ _ => by rfl]
    exact fun _ => id

end

section

variable {d d' : Daemon κ} {e : Event κ lib}

theorem queueMedia_sameFlows (d : Daemon κ) (command : MediaCommand) :
    SameFlows d (d.queueMedia command) :=
  (d.queueMedia_mediaOnly command).sameFlows

theorem queueMedia_queues {base : Daemon κ} (h : SameEngine d base) (command : MediaCommand) :
    Queues command d (base.queueMedia command) := by
  obtain ⟨hm, hq⟩ := h
  unfold Queues queueMedia
  by_cases hsome : d.media.isSome
  · rw [if_pos hsome, if_pos (by rwa [hm])]
    exact ⟨hm, by rw [hq]⟩
  · rw [if_neg hsome, if_neg (by rwa [hm])]
    exact ⟨hm, hq⟩

theorem queueMedia_registers {b : Daemon κ} {p : String}
    (ha : Agrees (b.queueMedia (.registerPeer p)) d') (hf : SameFlows d b) (he : SameEngine d b)
    (hl : Lists p d b) : SameFlows d d' ∧ Queues (.registerPeer p) d d' ∧ Lists p d d' := by
  obtain ⟨hflows, hticks⟩ := queueMedia_sameFlows b (.registerPeer p)
  obtain ⟨hm, hq⟩ := queueMedia_queues he (.registerPeer p)
  have hpeers : (b.queueMedia (.registerPeer p)).status.peerIds = b.status.peerIds :=
    (b.queueMedia_mediaOnly (.registerPeer p)).samePeers
  refine ⟨⟨?_, ?_⟩, ⟨ha.engine.1.trans hm, ha.engine.2.trans hq⟩, fun q hmem => hl q ?_⟩
  · rw [ha.flows.1, hflows, hf.1]
  · rw [ha.flows.2, hticks, hf.2]
  · rw [ha.peers, hpeers] at hmem
    exact hmem

theorem sendSessionHello_if (lib : Libp2p) (c : Prop) [Decidable c] (d : Daemon κ)
    (peerId : String) (hello : SessionHello) :
    ∃ requests, (if c then sendSessionHello lib d peerId hello else (d, [])).1 =
      { d with helloRequests := requests } := by
  unfold sendSessionHello
  split_ifs
  · exact ⟨_, rfl⟩
  · exact ⟨_, rfl⟩
  · exact ⟨_, rfl⟩

theorem sendSessionHello_agrees (lib : Libp2p) (c : Prop) [Decidable c] (d : Daemon κ)
    (peerId : String) (hello : SessionHello) :
    Agrees d (if c then sendSessionHello lib d peerId hello else (d, [])).1 := by
  obtain ⟨requests, hsend⟩ := sendSessionHello_if lib c d peerId hello
  rw [hsend]
  exact ⟨⟨rfl, rfl⟩, ⟨rfl, rfl⟩, rfl⟩

theorem sendSessionHello_status (lib : Libp2p) (c : Prop) [Decidable c] (d : Daemon κ)
    (peerId : String) (hello : SessionHello) :
    (if c then sendSessionHello lib d peerId hello else (d, [])).1.status = d.status := by
  obtain ⟨requests, hsend⟩ := sendSessionHello_if lib c d peerId hello
  rw [hsend]

theorem onConnectionEstablished_move (d : Daemon κ) (peer : PeerId lib) (endpoint : Endpoint) :
    Move d (.connectionEstablished peer endpoint : Event κ lib)
      (d.onConnectionEstablished lib peer.text endpoint).1 := by
  by_cases hs : shouldSurfaceConnectedPeer d.status peer.text
      (d.pendingDials peer.text).isSome = true
  · suffices h : SameFlows d (d.onConnectionEstablished lib peer.text endpoint).1 ∧
        Queues (.registerPeer peer.text) d (d.onConnectionEstablished lib peer.text endpoint).1 ∧
        Lists peer.text d (d.onConnectionEstablished lib peer.text endpoint).1 from
      .surfaced ⟨rfl, hs⟩ h.1 h.2.1 h.2.2
    simp only [onConnectionEstablished, hs, if_true, withStatus]
    refine queueMedia_registers (sendSessionHello_agrees lib _ _ _ _) ⟨rfl, rfl⟩ ⟨rfl, rfl⟩ ?_
    intro q hq
    have hlisted := mem_peerIds_upsertPeer hq
    exact hlisted
  · refine .quiet ⟨fun _ => id, by simp⟩ ?_
    simp only [onConnectionEstablished, hs, withStatus]
    exact ⟨⟨rfl, rfl⟩, ⟨rfl, rfl⟩, rfl⟩

theorem onConnectionClosed_flows (d : Daemon κ) (peerId : String) (n : Nat) :
    (d.onConnectionClosed peerId n).activeMediaFlows = d.activeMediaFlows.erase peerId ∧
      (d.onConnectionClosed peerId n).mediaTicks = d.mediaTicks := by
  have hqueue := fun b : Daemon κ => queueMedia_sameFlows b (.disconnectPeer peerId)
  simp only [onConnectionClosed, withStatus, (hqueue _).1, (hqueue _).2]
  split_ifs <;> exact ⟨rfl, rfl⟩

theorem onConnectionClosed_move (d : Daemon κ) (peer : PeerId lib) (n : Nat) :
    Move d (.connectionClosed peer n : Event κ lib) (d.onConnectionClosed peer.text n) := by
  obtain ⟨hf, ht⟩ := d.onConnectionClosed_flows peer.text n
  refine .closed rfl hf ht ?_ ?_
  · simp only [onConnectionClosed, withStatus]
    split_ifs <;>
    · refine queueMedia_queues ?_ _
      exact ⟨rfl, rfl⟩
  · have hpeers := fun b : Daemon κ =>
      (b.queueMedia_mediaOnly (.disconnectPeer peer.text)).samePeers
    simp only [onConnectionClosed, withStatus]
    split_ifs <;>
    · intro q hq
      rw [hpeers] at hq
      exact closeStatus_peerIds n hq

theorem onIdentifyReceived_move (d : Daemon κ) (peer : PeerId lib) (info : IdentifyInfo) :
    Move d (.identifyReceived peer info : Event κ lib)
      (d.onIdentifyReceived lib peer.text info) := by
  by_cases hs : shouldSurfaceApprovedPeer d.status peer.text = true
  · refine .identified (p := peer.text) ⟨rfl, hs⟩ ?_ ?_ ?_
    · simp only [onIdentifyReceived, hs, if_true, withStatus]
      split_ifs <;> exact ⟨rfl, rfl⟩
    · simp only [onIdentifyReceived, hs, if_true, withStatus]
      split_ifs <;> exact ⟨rfl, rfl⟩
    · intro q hq
      have hids : (d.onIdentifyReceived lib peer.text info).status.peerIds =
          (getOrInsertPeer d.status peer.text (info.listenAddrs.headD "<unknown>") fun p =>
            { p with
              displayName := if info.agentVersion = "" then "peer " ++ shortPeerId peer.text
                else info.agentVersion
              transport := .connected }).peerIds := by
        simp only [onIdentifyReceived, hs, if_true, withStatus]
        split_ifs <;> exact updateKnownPeer_peerIds _ _ _ _
      rw [hids] at hq
      exact mem_peerIds_updateOrPush (fun _ => by rfl) (by rfl) hq
  · refine .quiet ⟨fun _ => id, by simp⟩ ?_
    simp only [onIdentifyReceived, if_neg hs, withStatus]
    split_ifs <;> exact ⟨⟨rfl, rfl⟩, ⟨rfl, rfl⟩, rfl⟩

theorem applySessionHello_registers (lib : Libp2p) {b c : Daemon κ} (hf : SameFlows d b)
    (he : SameEngine d b) (hs : b.status = d.status) (peerId : String) (hello : SessionHello)
    (ha : Agrees ((b.withStatus fun status =>
      applySessionHello lib status peerId hello).queueMedia (.registerPeer peerId)) c) :
    SameFlows d c ∧ Queues (.registerPeer peerId) d c ∧ Lists peerId d c := by
  refine queueMedia_registers ha hf he ?_
  intro q hq
  have hlisted := mem_peerIds_applySessionHello hq
  rwa [hs] at hlisted

/-- An applied hello is registered and opens the flow, whatever else it does. -/
theorem applyApprovedSessionHello_openFlow (lib : Libp2p) {b : Daemon κ} (hf : SameFlows d b)
    (he : SameEngine d b) (hs : b.status = d.status) (peerId : String) (hello : SessionHello)
    (channel : Nat) :
    ∃ c : Daemon κ, (b.applyApprovedSessionHello lib peerId hello channel).1 =
        c.openFlow peerId ∧
      SameFlows d c ∧ Queues (.registerPeer peerId) d c ∧ Lists peerId d c := by
  simp only [applyApprovedSessionHello]
  split
  · next hp =>
    exact ⟨_, by rw [openFlow, if_pos hp], applySessionHello_registers lib hf he hs peerId hello
      ⟨⟨rfl, rfl⟩, ⟨rfl, rfl⟩, rfl⟩⟩
  · exact ⟨_, rfl, applySessionHello_registers lib hf he hs peerId hello
      ⟨⟨rfl, rfl⟩, ⟨rfl, rfl⟩, rfl⟩⟩

theorem openFlow_engine (d : Daemon κ) (peerId : String) :
    SameEngine d (d.openFlow peerId) ∧ SamePeers d (d.openFlow peerId) := by
  unfold openFlow
  split
  · exact ⟨⟨rfl, rfl⟩, rfl⟩
  · exact ⟨⟨rfl, rfl⟩, rfl⟩

theorem SameFlows.openFlow {b : Daemon κ} (h : SameFlows d b) (peerId : String) :
    SameFlows (d.openFlow peerId) (b.openFlow peerId) := by
  obtain ⟨hf, ht⟩ := h
  unfold Daemon.openFlow
  by_cases hp : peerId ∈ d.activeMediaFlows
  · rw [if_pos hp, if_pos (hf ▸ hp)]
    exact ⟨hf, ht⟩
  · rw [if_neg hp, if_neg (hf ▸ hp)]
    exact ⟨by simp [scheduleMediaTick, hf], by simp [scheduleMediaTick, ht]⟩

theorem openFlow_move {b : Daemon κ} {p : String} (ha : d.Admits e p) (hf : SameFlows d b)
    (hq : Queues (.registerPeer p) d b) (hl : Lists p d b)
    (hb : Agrees (b.openFlow p) d') : Move d e d' := by
  obtain ⟨hengine, hpeers⟩ := b.openFlow_engine p
  have hopen := hf.openFlow p
  refine .admitted ha ⟨hb.flows.1.trans hopen.1, hb.flows.2.trans hopen.2⟩
    ⟨(hb.engine.1.trans hengine.1).trans hq.1, (hb.engine.2.trans hengine.2).trans hq.2⟩ ?_
  intro q hmem
  rw [hb.peers, hpeers] at hmem
  exact hl q hmem

theorem onSessionHello_move (d : Daemon κ) (peer : PeerId lib) (hello : SessionHello)
    (channel : Nat) :
    Move d (.sessionHello peer hello channel : Event κ lib)
      (d.onSessionHello lib peer.text hello channel).1 := by
  simp only [onSessionHello]
  split
  · next hgate =>
    obtain ⟨c, hc, hf, hq, hl⟩ := applyApprovedSessionHello_openFlow (d := d) lib
      (b := { d with
        relayOffers := Function.update d.relayOffers peer.text (some hello.trustedContacts) })
      ⟨rfl, rfl⟩ ⟨rfl, rfl⟩ rfl peer.text hello channel
    rw [hc]
    exact openFlow_move ⟨rfl, hgate⟩ hf hq hl ⟨⟨rfl, rfl⟩, ⟨rfl, rfl⟩, rfl⟩
  · next hgate =>
    refine .quiet ⟨fun p ha => ?_, by simp⟩ ⟨⟨rfl, rfl⟩, ⟨rfl, rfl⟩, ?_⟩
    · obtain ⟨rfl, ha⟩ := ha
      exact hgate ha
    · unfold SamePeers DaemonStatus.peerIds queuePendingPeerApproval
      simp only
      split <;> rfl

theorem onSessionHelloAck_move (d : Daemon κ) (peer : PeerId lib) (hello : SessionHello) :
    Move d (.sessionHelloAck peer hello : Event κ lib)
      (d.onSessionHelloAck lib peer.text hello).1 := by
  simp only [onSessionHelloAck]
  split
  · next hzero =>
    refine .quiet ⟨fun p ha => ?_, by simp⟩ ⟨⟨rfl, rfl⟩, ⟨rfl, rfl⟩, rfl⟩
    obtain ⟨rfl, ha⟩ := ha
    exact ha hzero
  · next hsome =>
    have hreg := fun c => applySessionHello_registers (d := d) (c := c) lib
      (b := { d.answerHello peer.text with
        relayOffers := Function.update d.relayOffers peer.text (some hello.trustedContacts) })
      ⟨rfl, rfl⟩ ⟨rfl, rfl⟩ rfl peer.text hello
    obtain ⟨hf, hq, hl⟩ := hreg _ ⟨⟨rfl, rfl⟩, ⟨rfl, rfl⟩, rfl⟩
    exact openFlow_move ⟨rfl, hsome⟩ hf hq hl ⟨⟨rfl, rfl⟩, ⟨rfl, rfl⟩, rfl⟩

theorem approvePendingPeer_move (d : Daemon κ) (peerId : String) (whitelist : Bool) :
    Move d (.approvePendingPeer peerId whitelist : Event κ lib)
      (d.approvePendingPeer lib peerId whitelist).1 := by
  cases hp : d.pendingInboundApprovals peerId with
  | none =>
    simp only [approvePendingPeer, hp]
    refine .quiet ⟨fun p ha => ?_, by simp⟩ ⟨⟨rfl, rfl⟩, ⟨rfl, rfl⟩, rfl⟩
    obtain ⟨rfl, ha⟩ := ha
    simp [hp] at ha
  | some pending =>
    simp only [approvePendingPeer, hp]
    obtain ⟨c, hc, hf, hq, hl⟩ := applyApprovedSessionHello_openFlow (d := d) lib
      (b := { d with
        pendingInboundApprovals := Function.update d.pendingInboundApprovals peerId none })
      ⟨rfl, rfl⟩ ⟨rfl, rfl⟩ rfl peerId pending.hello pending.channel
    rw [hc]
    exact openFlow_move ⟨rfl, by rw [hp]; rfl⟩ hf hq hl ⟨⟨rfl, rfl⟩, ⟨rfl, rfl⟩, rfl⟩

theorem relayed_destination {state : DaemonStatus} {offers : String → Option (List String)}
    {target via destination : String}
    (h : resolveRoute lib state offers target = .relayed via destination) :
    destination = target := by
  have hroute : ∀ candidates, relayRoute lib candidates target = .relayed via destination →
      destination = target := by
    intro candidates hr
    unfold relayRoute at hr
    split at hr
    · cases hr
    · split_ifs at hr
      cases hr
      rfl
  unfold resolveRoute at h
  split at h
  · split_ifs at h
    exact hroute _ h
  · exact hroute _ h

structure TickCall (peerId : String) (d d' : Daemon κ) : Prop where
  mediaOnly : d.MediaOnly d'
  other : ∀ q, q ≠ peerId → Spares q d d'
  silent : d.Silent peerId → d'.Silent peerId

theorem TickCall.refl (peerId : String) (d : Daemon κ) : TickCall peerId d d :=
  ⟨.refl d, fun q _ => .refl q d, id⟩

theorem buildNextAudioFrame_tickCall (π : Profile) (d : Daemon κ) (peerId : String) (pcm : κ.Pcm)
    (nowMs : UInt64) : TickCall peerId d (d.callMedia fun status peers =>
      buildNextAudioFrame π status peers peerId pcm nowMs).2 where
  mediaOnly := d.callMedia_mediaOnly fun _ _ _ _ _ h => (buildNextAudioFrame_callFor h).1.status
  other q hq := d.callMedia_spares fun _ _ _ _ _ h => (buildNextAudioFrame_callFor h).1.other q hq
  silent hs := callMedia_silent hs fun _ _ _ _ _ h => (buildNextAudioFrame_callFor h).2

def consumeTick (d : Daemon κ) (peerId : String) : Daemon κ :=
  { d with mediaTicks := Function.update d.mediaTicks peerId (d.mediaTicks peerId - 1) }

section

variable {peerId : String} {pcm : κ.Pcm} {nowMs : UInt64}

theorem tickCall_move {c : Daemon κ} {f : DaemonStatus → DaemonStatus}
    (he : e = .sendMediaFrame peerId pcm nowMs) (hpos : d.mediaTicks peerId ≠ 0)
    (hflow : peerId ∈ d.activeMediaFlows) (hc : TickCall peerId (d.consumeTick peerId) c)
    (hf : ∀ status, (f status).peerIds = status.peerIds) :
    Move d e ((c.withStatus f).scheduleMediaTick peerId) := by
  obtain ⟨hflows, hticks⟩ := hc.mediaOnly.sameFlows
  have hread : ∀ q, Spares q d (d.consumeTick peerId) := fun q => .of_engine rfl rfl
  have hdone : ∀ q, Spares q c ((c.withStatus f).scheduleMediaTick peerId) :=
    fun q => .of_engine rfl rfl
  have hone : d.mediaTicks peerId - 1 + 1 = d.mediaTicks peerId := by omega
  refine .ticked he hflow ⟨hflows, ?_⟩ ?_
    (fun q hq => ((hread q).trans (hc.other q hq)).trans (hdone q))
    (fun hs => (hdone peerId).silent (hc.silent ((hread peerId).silent hs)))
  · simp only [scheduleMediaTick, withStatus, hticks, consumeTick, Function.update_self,
      Function.update_idem, hone, Function.update_eq_self]
  · exact (hf c.status).trans hc.mediaOnly.samePeers

theorem setRouteVia_peerIds (status : DaemonStatus) (peerId : String) (via : Option String) :
    (setRouteVia status peerId via).peerIds = status.peerIds := by
  exact (updatePeerMedia_peersOnly _ _ _).peerIds

theorem runMediaTick_move (π : Profile) (he : e = .sendMediaFrame peerId pcm nowMs)
    (hpos : d.mediaTicks peerId ≠ 0) (hflow : peerId ∈ d.activeMediaFlows) :
    Move d e ((d.consumeTick peerId).runMediaTick π lib peerId pcm nowMs).1 := by
  have hcall := buildNextAudioFrame_tickCall π (d.consumeTick peerId) peerId pcm nowMs
  simp only [runMediaTick]
  split
  · refine tickCall_move he hpos hflow ?_ fun status => setRouteVia_peerIds status peerId none
    split
    · exact hcall
    · exact .refl _ _
  · next via destination hroute =>
    obtain rfl := relayed_destination hroute
    split
    · exact tickCall_move (f := id) he hpos hflow (.refl _ _) fun _ => rfl
    · exact tickCall_move he hpos hflow hcall fun status => setRouteVia_peerIds status _ _
  · refine .spent he (Nat.pos_of_ne_zero hpos) rfl rfl ⟨rfl, rfl⟩ ?_
    exact (updatePeerMedia_peersOnly _ _ _).peerIds

theorem onSendMediaFrame_move (π : Profile) (d : Daemon κ) (peerId : String) (pcm : κ.Pcm)
    (nowMs : UInt64) :
    Move d (.sendMediaFrame peerId pcm nowMs : Event κ lib)
      (d.onSendMediaFrame π lib peerId pcm nowMs).1 := by
  simp only [onSendMediaFrame]
  split
  · exact .quiet ⟨fun _ => id, by simp⟩ ⟨⟨rfl, rfl⟩, ⟨rfl, rfl⟩, rfl⟩
  · next hpos =>
    split
    · next hflow => exact runMediaTick_move π rfl hpos hflow
    · next hflow =>
      exact .spent rfl (Nat.pos_of_ne_zero hpos) (Finset.erase_eq_of_notMem hflow).symm rfl
        ⟨rfl, rfl⟩ rfl

end

theorem onMediaRequest_move (π : Profile) (d : Daemon κ) (peer : PeerId lib)
    (request : MediaRequest) :
    Move d (.mediaRequest peer request : Event κ lib)
      (d.onMediaRequest π lib peer.text request).1 := by
  have hcall : ∀ frame : MediaFrame, d.Delivers (.mediaRequest peer request : Event κ lib) peer.text →
      Move d (.mediaRequest peer request : Event κ lib) (d.callMedia fun status peers =>
        handleIncomingFrame π status peers peer.text frame).2 := by
    intro frame hd
    have honly : d.MediaOnly (d.callMedia fun status peers =>
        handleIncomingFrame π status peers peer.text frame).2 :=
      d.callMedia_mediaOnly fun _ _ _ _ _ h => (handleIncomingFrame_callFor h).status
    exact .delivered hd honly.sameFlows honly.samePeers fun q hq =>
      d.callMedia_spares fun _ _ _ _ _ h => (handleIncomingFrame_callFor h).other q hq
  cases request with
  | frame frame => exact hcall frame rfl
  | relayedFrame destination frame =>
    simp only [onMediaRequest]
    split
    · next hlocal => exact hcall frame ⟨rfl, hlocal⟩
    · split <;> exact .quiet ⟨fun _ => id, by simp⟩ ⟨⟨rfl, rfl⟩, ⟨rfl, rfl⟩, rfl⟩

theorem onMediaResponse_move (d : Daemon κ) (peer : PeerId lib) (response : MediaResponse) :
    Move d (.mediaResponse peer response : Event κ lib) (d.onMediaResponse peer.text response) := by
  have hn : d.Neutral (.mediaResponse peer response : Event κ lib) := ⟨fun _ => id, by simp⟩
  cases response with
  | ack ack =>
    exact (d.queueMedia_mediaOnly _).move hn fun p => queueMedia_spares (by simp) d
  | relayAck destination ack =>
    exact (d.queueMedia_mediaOnly _).move hn fun p => queueMedia_spares (by simp) d
  | relayDenied destination reason => exact .quiet hn ⟨⟨rfl, rfl⟩, ⟨rfl, rfl⟩, rfl⟩

theorem saveKnownPeer_peers (state : DaemonStatus) (peerId : String) :
    (saveKnownPeer state peerId).2.peers = state.peers := by
  simp only [saveKnownPeer]
  split <;> rfl

theorem forgetKnownPeer_peers (state : DaemonStatus) (peerId : String) :
    (forgetKnownPeer state peerId).2.peers = state.peers := by
  simp only [forgetKnownPeer]
  split <;> rfl

theorem setTrustedContact_peers (state : DaemonStatus) (peerId : String) (trusted : Bool) :
    (setTrustedContact state peerId trusted).2.peers = state.peers := by
  simp only [setTrustedContact]
  split <;> rfl

theorem renameKnownPeer_peerIds (state : DaemonStatus) (peerId displayName : String) :
    (renameKnownPeer state peerId displayName).2.peerIds = state.peerIds := by
  simp only [renameKnownPeer]
  split
  · exact map_updateFirst fun _ _ => by rfl
  · rfl

theorem runFollowUp_peers (state : DaemonStatus) (followUp : FollowUp) :
    (runFollowUp state followUp).peers = state.peers := by
  cases followUp with
  | approved peerId whitelist =>
    simp only [runFollowUp]
    split <;> rfl
  | rejected peerId => rfl

theorem handle_move (π : Profile) (d : Daemon κ) (e : Event κ lib) :
    Move d e (d.handle π lib e).1 := by
  cases e with
  | connectionEstablished peer endpoint => exact onConnectionEstablished_move d peer endpoint
  | connectionClosed peer n => exact onConnectionClosed_move d peer n
  | outgoingConnectionError peer dialed =>
    exact (onOutgoingConnectionError_bookOnly d _ dialed).1.move ⟨fun _ => id, by simp⟩
  | identifyReceived peer info => exact onIdentifyReceived_move d peer info
  | ping peer =>
    refine .quiet ⟨fun _ => id, by simp⟩ ⟨⟨rfl, rfl⟩, ⟨rfl, rfl⟩, ?_⟩
    exact map_updateFirst fun _ _ => by rfl
  | foundRecord query invite dialed =>
    exact (onFoundRecord_bookOnly d query invite dialed).1.move ⟨fun _ => id, by simp⟩
  | sessionHello peer hello channel => exact onSessionHello_move d peer hello channel
  | sessionHelloAck peer hello => exact onSessionHelloAck_move d peer hello
  | mediaRequest peer request => exact onMediaRequest_move π d peer request
  | mediaResponse peer response => exact onMediaResponse_move d peer response
  | dial address query dialed =>
    exact (dialPeer_bookOnly d address query dialed).1.move ⟨fun _ => id, by simp⟩
  | approvePendingPeer peerId whitelist => exact approvePendingPeer_move d peerId whitelist
  | rejectPendingPeer peerId =>
    simp only [handle, rejectPendingPeer]
    split <;> exact .quiet ⟨fun _ => id, by simp⟩ ⟨⟨rfl, rfl⟩, ⟨rfl, rfl⟩, rfl⟩
  | sendMediaFrame peerId pcm nowMs => exact onSendMediaFrame_move π d peerId pcm nowMs
  | mediaCommand =>
    exact d.runNextMediaCommand_mediaOnly.move ⟨fun _ => id, by simp⟩ fun p =>
      d.runNextMediaCommand_spares p
  | playout now peerIds =>
    exact (onPlayout_mediaOnly π d now peerIds).move ⟨fun _ => id, by simp⟩ fun p =>
      onPlayout_spares π p d now peerIds
  | followUp index =>
    simp only [handle]
    split
    · exact .quiet ⟨fun _ => id, by simp⟩ ⟨⟨rfl, rfl⟩, ⟨rfl, rfl⟩, rfl⟩
    · refine .quiet ⟨fun _ => id, by simp⟩ ⟨⟨rfl, rfl⟩, ⟨rfl, rfl⟩, ?_⟩
      exact congrArg (List.map PeerSummary.peerId) (runFollowUp_peers d.status _)
  | saveKnownPeer peerId =>
    refine .quiet ⟨fun _ => id, by simp⟩ ⟨⟨rfl, rfl⟩, ⟨rfl, rfl⟩, ?_⟩
    exact congrArg (List.map PeerSummary.peerId) (saveKnownPeer_peers d.status peerId)
  | renameKnownPeer peerId displayName =>
    exact .quiet ⟨fun _ => id, by simp⟩
      ⟨⟨rfl, rfl⟩, ⟨rfl, rfl⟩, renameKnownPeer_peerIds d.status peerId displayName⟩
  | forgetKnownPeer peerId =>
    refine .quiet ⟨fun _ => id, by simp⟩ ⟨⟨rfl, rfl⟩, ⟨rfl, rfl⟩, ?_⟩
    exact congrArg (List.map PeerSummary.peerId) (forgetKnownPeer_peers d.status peerId)
  | setTrustedContact peerId trusted =>
    refine .quiet ⟨fun _ => id, by simp⟩ ⟨⟨rfl, rfl⟩, ⟨rfl, rfl⟩, ?_⟩
    exact congrArg (List.map PeerSummary.peerId) (setTrustedContact_peers d.status peerId trusted)
  | toggleMutePeer peerId =>
    refine .quiet ⟨fun _ => id, by simp⟩ ⟨⟨rfl, rfl⟩, ⟨rfl, rfl⟩, ?_⟩
    exact map_updateFirst fun _ _ => by rfl
  | setPeerVolumePercent peerId percent =>
    refine .quiet ⟨fun _ => id, by simp⟩ ⟨⟨rfl, rfl⟩, ⟨rfl, rfl⟩, ?_⟩
    exact map_updateFirst fun _ _ => by rfl
  | _ => exact .quiet ⟨fun _ => id, by simp⟩ ⟨⟨rfl, rfl⟩, ⟨rfl, rfl⟩, rfl⟩

end

end Daemon

end Voicers
