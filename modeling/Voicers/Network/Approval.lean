import Voicers.Network.DaemonFlow
import Voicers.Media.Receive

/-! The approval gate. An inbound hello is applied when its sender is
whitelisted or listed as connected, so a peer that was never whitelisted,
dialed or approved stays out as long as nothing else puts it on the list. A
second connection of a peer that waits for approval does just that. -/

namespace Voicers

open Lib

variable {κ : Codec} {lib : Libp2p}

/-- The peer is whitelisted, or a dial of it for the local user is pending. -/
def Daemon.Vouched (d : Daemon κ) (peerId : String) : Prop :=
  isPeerWhitelisted d.status peerId = true ∨ (d.pendingDials peerId).isSome = true

def Approves (x : DaemonTransition κ lib) (peerId : String) : Prop :=
  ∃ whitelist, x.input = .approvePendingPeer peerId whitelist ∧
    (x.before.pendingInboundApprovals peerId).isSome = true

/-- After the run `tr`, which has led to `d`: the peer is or was vouched for,
or has been approved. -/
def Authorised (tr : List (DaemonTransition κ lib)) (d : Daemon κ) (peerId : String) : Prop :=
  d.Vouched peerId ∨ ∃ x ∈ tr, x.before.Vouched peerId ∨ Approves x peerId

/-- No inbound hello is applied unless its sender is authorised. -/
def ApprovalGate : List (DaemonTransition κ lib) → Prop :=
  Along fun pre x => ∀ peer hello channel, x.input = .sessionHello peer hello channel →
    .sessionActive peer.text ∈ x.output → Authorised pre x.before peer.text

def DaemonStatus.Knows (state : DaemonStatus) (peerId : String) : Prop :=
  state.network.knownPeers.any (fun p => p.peerId = peerId) = true

def DaemonStatus.Holds (state : DaemonStatus) (peerId : String) : Prop :=
  state.pendingPeerApprovals.any (fun pending => pending.peerId = peerId) = true

/-- The event is none of those that list a peer nobody vouched for: a
connection while the peer is in the book or waits for approval, an
identification while it is in the book, an answer to a broadcast hello. -/
def Daemon.KeepsOut (d : Daemon κ) (e : Event κ lib) (peerId : String) : Prop :=
  match e with
  | .connectionEstablished peer _ => peer.text = peerId →
      ¬ d.status.Knows peerId ∧ ¬ d.status.Holds peerId
  | .identifyReceived peer _ => peer.text = peerId → ¬ d.status.Knows peerId
  | .sessionHelloAck peer _ => peer.text = peerId → d.helloRequests peerId = 0
  | _ => True

/-- Every event of the run keeps out the peers that are not authorised. -/
def KeptOut : List (DaemonTransition κ lib) → Prop :=
  Along fun pre x => ∀ peerId, Authorised pre x.before peerId ∨ x.before.KeepsOut x.input peerId

section

variable {tr : List (DaemonTransition κ lib)} {x : DaemonTransition κ lib} {p : String}

theorem Authorised.snoc (h : Authorised tr x.before p) : Authorised (tr ++ [x]) x.after p := by
  right
  rcases h with h | ⟨y, hy, h⟩
  · exact ⟨x, by simp, .inl h⟩
  · exact ⟨y, List.mem_append_left _ hy, h⟩

theorem Approves.authorised (h : Approves x p) : Authorised (tr ++ [x]) x.after p :=
  .inr ⟨x, by simp, .inr h⟩

theorem Daemon.Move.listed {d d' : Daemon κ} {e : Event κ lib} (h : Daemon.Move d e d')
    (hp : p ∈ d'.status.peerIds) :
    p ∈ d.status.peerIds ∨ d.Surfaces e p ∨ d.Identifies e p ∨ d.Admits e p := by
  cases h with
  | quiet _ ha => exact .inl (ha.peers ▸ hp)
  | identified hi _ _ hl =>
    rcases hl p hp with h | rfl
    · exact .inl h
    · exact .inr (.inr (.inl hi))
  | surfaced hs _ _ hl =>
    rcases hl p hp with h | rfl
    · exact .inl h
    · exact .inr (.inl hs)
  | admitted ha _ _ hl =>
    rcases hl p hp with h | rfl
    · exact .inl h
    · exact .inr (.inr (.inr ha))
  | closed _ _ _ _ hl => exact .inl (hl hp)
  | engine _ _ hs _ => exact .inl (hs ▸ hp)
  | delivered _ _ hs _ => exact .inl (hs ▸ hp)
  | ticked _ _ _ hs _ _ => exact .inl (hs ▸ hp)
  | spent _ _ _ _ _ hs => exact .inl (hs ▸ hp)

theorem any_peerId_iff {state : DaemonStatus} :
    state.peers.any (fun q => q.peerId = p) = true ↔ p ∈ state.peerIds := by
  simp [DaemonStatus.peerIds]

theorem listed_of_sessionHello {d : Daemon κ} {peer : PeerId lib} {hello : SessionHello}
    {channel : Nat} (h : d.Admits (.sessionHello peer hello channel : Event κ lib) p) :
    p ∈ d.status.peerIds ∨ d.Vouched p := by
  obtain ⟨rfl, hgate⟩ := h
  rcases Bool.or_eq_true_iff.mp hgate with hlisted | hwhite
  · left
    simp only [alreadyConnected, List.any_eq_true, Bool.and_eq_true, decide_eq_true_eq] at hlisted
    obtain ⟨q, hq, hp, _⟩ := hlisted
    exact hp ▸ List.mem_map_of_mem hq
  · right
    exact .inl (by simpa [shouldGatePeerApproval] using hwhite)

/-- An event that lists a peer finds it listed, vouched for or approved,
unless it fails to keep the peer out. -/
theorem Daemon.KeepsOut.listing {d : Daemon κ} {e : Event κ lib} (hkeep : d.KeepsOut e p)
    (hlist : d.Surfaces e p ∨ d.Identifies e p ∨ d.Admits e p) :
    p ∈ d.status.peerIds ∨ d.Vouched p ∨ ∃ whitelist, e = .approvePendingPeer p whitelist ∧
      (d.pendingInboundApprovals p).isSome = true := by
  cases e with
  | connectionEstablished peer endpoint =>
    rcases hlist with ⟨rfl, hs⟩ | hi | ha
    · obtain ⟨hknown, hheld⟩ := hkeep rfl
      simp only [shouldSurfaceConnectedPeer, shouldSurfacePeerMetadata, Bool.or_eq_true] at hs
      rcases hs with hdial | (hp | hp) | hp
      · exact .inr (.inl (.inr hdial))
      · exact .inl (any_peerId_iff.mp hp)
      · exact absurd hp hknown
      · exact absurd hp hheld
    · exact absurd hi id
    · exact absurd ha id
  | identifyReceived peer info =>
    rcases hlist with hs | ⟨rfl, hi⟩ | ha
    · exact absurd hs id
    · rcases Bool.or_eq_true_iff.mp hi with hp | hp
      · exact .inl (any_peerId_iff.mp hp)
      · exact absurd hp (hkeep rfl)
    · exact absurd ha id
  | sessionHello peer hello channel =>
    rcases hlist with hs | hi | ha
    · exact absurd hs id
    · exact absurd hi id
    · exact (listed_of_sessionHello ha).imp id .inl
  | sessionHelloAck peer hello =>
    rcases hlist with hs | hi | ⟨rfl, ha⟩
    · exact absurd hs id
    · exact absurd hi id
    · exact absurd (hkeep rfl) ha
  | approvePendingPeer approved whitelist =>
    rcases hlist with hs | hi | ⟨rfl, ha⟩
    · exact absurd hs id
    · exact absurd hi id
    · exact .inr (.inr ⟨whitelist, rfl, ha⟩)
  | _ => exact absurd hlist (by simp [Daemon.Surfaces, Daemon.Identifies, Daemon.Admits])

/-- With everyone else kept out, the listed peers are authorised at any time,
and so are the senders of the hellos that are applied. -/
theorem approval_gate {π : Profile} {persisted : PersistedState} {displayName localPeerId : String}
    {events : List (Event κ lib)} {d : Daemon κ}
    (h : daemonRun π lib (bootstrap persisted displayName localPeerId) events = some (tr, d))
    (hk : KeptOut tr) : ApprovalGate tr := by
  refine ((daemonRun_trace h).along
    (I := fun tr d => ∀ q ∈ d.status.peerIds, Authorised tr d q) ?_ ?_ ?_ hk).2
  · intro q hq
    simp [Daemon.start, bootstrap, DaemonStatus.peerIds] at hq
  · intro pre x hstep hkeep hlisted q hq
    have hmove := x.before.handle_move π x.input
    rw [← (daemonStep_eq hstep).2] at hmove
    rcases hmove.listed hq with hq | hlist
    · exact (hlisted q hq).snoc
    · rcases hkeep q with hauth | hout
      · exact hauth.snoc
      · rcases hout.listing hlist with hq | hv | happroves
        · exact (hlisted q hq).snoc
        · exact Authorised.snoc (.inl hv)
        · exact Approves.authorised happroves
  · intro pre x hstep _ hlisted peer hello channel hin hout
    rw [(daemonStep_eq hstep).1, Daemon.sessionActive_mem_iff, hin] at hout
    rcases listed_of_sessionHello hout with hq | hv
    · exact hlisted peer.text hq
    · exact .inl hv

end

def Event.callOf (peerId : String) : Event κ lib → Bool
  | .connectionEstablished peer _ => peer.text = peerId
  | .sessionHello peer _ _ => peer.text = peerId
  | _ => false

def Event.helloOf (peerId : String) : Event κ lib → Bool
  | .sessionHello peer _ _ => peer.text = peerId
  | _ => false

def Effect.admits (peerId : String) : Effect κ → Bool
  | .sessionActive admitted => admitted = peerId
  | _ => false

theorem Effect.admits_iff {x : Effect κ} {peerId : String} :
    x.admits peerId = true ↔ x = .sessionActive peerId := by
  cases x <;> simp [Effect.admits]

def firstCall : List (Event silentCodec sampleLibp2p) :=
  [.connectionEstablished remote incoming, .sessionHello remote sampleHello 0]

theorem approval_gate_whitelistedFriend :
    ∃ tr d, daemonRun .release sampleLibp2p (bootstrap friendBook "local-user" localPeer)
        firstCall = some (tr, d) ∧
      remotePeer ∈ d.activeMediaFlows ∧ ApprovalGate tr := by
  have h : (daemonRun .release sampleLibp2p (bootstrap friendBook "local-user" localPeer)
      firstCall).map (fun r =>
        (r.1.all (fun x => isPeerWhitelisted x.before.status remotePeer &&
          x.input.callOf remotePeer), decide (remotePeer ∈ r.2.activeMediaFlows))) =
      some (true, true) := by decide +kernel
  obtain ⟨⟨tr, d⟩, hrun, hd⟩ := Option.map_eq_some_iff.mp h
  obtain ⟨hall, hflow⟩ := Prod.mk.inj hd
  refine ⟨tr, d, hrun, of_decide_eq_true hflow, approval_gate hrun ?_⟩
  intro pre x post heq peerId
  have hx := List.all_eq_true.mp hall x (heq ▸ List.mem_append_right _ List.mem_cons_self)
  obtain ⟨hwhite, hcall⟩ := Bool.and_eq_true_iff.mp hx
  by_cases hp : peerId = remotePeer
  · subst hp
    exact .inl (.inl (.inl hwhite))
  · right
    cases hin : x.input with
    | connectionEstablished peer endpoint =>
      simp only [hin, Event.callOf, decide_eq_true_eq] at hcall
      exact fun hq => absurd (hq.symm.trans hcall) hp
    | sessionHello peer hello channel => trivial
    | _ => simp [hin, Event.callOf] at hcall

/-- A stranger connects and says hello, connects a second time and says hello
again. -/
def secondConnection : List (Event silentCodec sampleLibp2p) :=
  firstCall ++ [.connectionEstablished remote incoming, .sessionHello remote sampleHello 1]

/-- The first hello is held and the second applied, although in between nobody
has vouched for the peer or approved it. -/
theorem secondConnection_admitted :
    ∃ tr d, daemonRun .release sampleLibp2p (bootstrap emptyBook "local-user" localPeer)
        secondConnection = some (tr, d) ∧
      remotePeer ∈ d.activeMediaFlows ∧ ¬ ApprovalGate tr := by
  have h : (daemonRun .release sampleLibp2p (bootstrap emptyBook "local-user" localPeer)
      secondConnection).map (fun r =>
        (r.1.all (fun x => !isPeerWhitelisted x.before.status remotePeer &&
          (x.before.pendingDials remotePeer).isNone && x.input.callOf remotePeer),
        r.1.getLast?.any (fun x => x.input.helloOf remotePeer &&
          x.output.any (Effect.admits remotePeer)),
        decide (remotePeer ∈ r.2.activeMediaFlows))) = some (true, true, true) := by
    decide +kernel
  obtain ⟨⟨tr, d⟩, hrun, hd⟩ := Option.map_eq_some_iff.mp h
  obtain ⟨hall, hd⟩ := Prod.mk.inj hd
  obtain ⟨hlast, hflow⟩ := Prod.mk.inj hd
  refine ⟨tr, d, hrun, of_decide_eq_true hflow, fun hgate => ?_⟩
  have hcalm : ∀ x ∈ tr, ¬ (x.before.Vouched remotePeer ∨ Approves x remotePeer) := by
    intro x hx hauth
    have hcheck := List.all_eq_true.mp hall x hx
    simp only [Bool.and_eq_true, Bool.not_eq_true'] at hcheck
    obtain ⟨⟨hwhite, hdial⟩, hcall⟩ := hcheck
    rcases hauth with (hv | hv) | ⟨whitelist, hin, _⟩
    · simp [hwhite] at hv
    · rw [Option.isNone_iff_eq_none.mp hdial] at hv
      cases hv
    · simp [hin, Event.callOf] at hcall
  obtain ⟨x, hx, hhello⟩ := (Option.any_eq_true _ _).mp hlast
  obtain ⟨pre, rfl⟩ := List.getLast?_eq_some_iff.mp hx
  obtain ⟨hhello, hactive⟩ := Bool.and_eq_true_iff.mp hhello
  obtain ⟨effect, heffect, hadmits⟩ := List.any_eq_true.mp hactive
  cases hin : x.input with
  | sessionHello peer hello channel =>
    simp only [hin, Event.helloOf, decide_eq_true_eq] at hhello
    have hout : .sessionActive peer.text ∈ x.output := by
      rwa [hhello, ← Effect.admits_iff.mp hadmits]
    have hauth : Authorised pre x.before peer.text := hgate pre x [] rfl peer hello channel hin hout
    rw [hhello] at hauth
    rcases hauth with hv | ⟨y, hy, hv⟩
    · exact hcalm x (List.mem_append_right _ (List.mem_singleton_self x)) (.inl hv)
    · exact hcalm y (List.mem_append_left _ hy) hv
  | _ => simp [hin, Event.helloOf] at hhello

end Voicers
