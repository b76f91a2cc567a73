import Voicers.Network.Approval

/-! Who is heard. A frame is meant to reach a jitter buffer only while a hello
of its sender stands, and a peer that waits for approval or was rejected is
meant to have no runtime. The engine takes every frame it is handed, so this
holds as far as frames come from peers with a flow. -/

namespace Voicers

open Lib

variable {κ : Codec} {lib : Libp2p}

/-- A hello of the peer has been applied, and the peer has not lost its last
connection since. -/
def Admitted (tr : List (DaemonTransition κ lib)) (peerId : String) : Prop :=
  ∃ pre x post, tr = pre ++ x :: post ∧ .sessionActive peerId ∈ x.output ∧
    ∀ y ∈ post, ∀ peer, y.input = .connectionClosed peer 0 → peer.text ≠ peerId

def EverAdmitted (tr : List (DaemonTransition κ lib)) (peerId : String) : Prop :=
  ∃ x ∈ tr, .sessionActive peerId ∈ x.output

/-- The local user has rejected the peer, and no hello of it has been applied
since. -/
def Refused (tr : List (DaemonTransition κ lib)) (peerId : String) : Prop :=
  ∃ pre x post, tr = pre ++ x :: post ∧ x.input = .rejectPendingPeer peerId ∧
    (x.before.pendingInboundApprovals peerId).isSome = true ∧
    ∀ y ∈ post, .sessionActive peerId ∉ y.output

/-- A connection of the peer that is more than transport, with a peer that was
dialed, or that neither waits for approval nor was rejected. -/
def Welcomes (pre : List (DaemonTransition κ lib)) (x : DaemonTransition κ lib)
    (peerId : String) : Prop :=
  x.before.Surfaces x.input peerId ∧ ((x.before.pendingDials peerId).isSome = true ∨
    (¬ x.before.status.Holds peerId ∧ ¬ Refused pre peerId))

def Welcomed (tr : List (DaemonTransition κ lib)) (peerId : String) : Prop :=
  ∃ pre x post, tr = pre ++ x :: post ∧ Welcomes pre x peerId

def Accepts (x : DaemonTransition κ lib) (peerId : String) : Prop :=
  x.before.Delivers x.input peerId ∧ ∃ response, .respondMedia peerId response ∈ x.output

/-- The engine takes frames of admitted peers, has runtimes for peers that were
admitted or welcomed, and only plays peers that were admitted. -/
structure MediaGate (pre : List (DaemonTransition κ lib)) (x : DaemonTransition κ lib) : Prop where
  accepted : ∀ peerId, Accepts x peerId → Admitted pre peerId
  runtime : ∀ peerId, (x.after.runtime peerId).isSome = true →
    EverAdmitted (pre ++ [x]) peerId ∨ Welcomed (pre ++ [x]) peerId
  pushed : ∀ peerId samples, .pushPeerPcm peerId samples ∈ x.output → EverAdmitted pre peerId

/-- A frame is delivered only from a peer with a flow, and a connection is more
than transport only for a peer that is welcome. -/
structure MediaGuard (pre : List (DaemonTransition κ lib)) (x : DaemonTransition κ lib) :
    Prop where
  delivered : ∀ peerId, x.before.Delivers x.input peerId → peerId ∈ x.before.activeMediaFlows
  surfaced : ∀ peerId, x.before.Surfaces x.input peerId → Welcomes pre x peerId

section

variable {tr : List (DaemonTransition κ lib)} {x : DaemonTransition κ lib} {p : String}

theorem Admitted.ever (h : Admitted tr p) : EverAdmitted tr p := by
  obtain ⟨pre, x, post, rfl, hx, _⟩ := h
  exact ⟨x, by simp, hx⟩

theorem Admitted.snoc (h : Admitted tr p)
    (hx : ∀ peer, x.input = .connectionClosed peer 0 → peer.text ≠ p) :
    Admitted (tr ++ [x]) p := by
  obtain ⟨pre, y, post, rfl, hy, hpost⟩ := h
  refine ⟨pre, y, post ++ [x], by simp, hy, fun z hz => ?_⟩
  rcases List.mem_append.mp hz with hz | hz
  · exact hpost z hz
  · rw [List.mem_singleton.mp hz]
    exact hx

theorem admitted_of_active (h : .sessionActive p ∈ x.output) : Admitted (tr ++ [x]) p :=
  ⟨tr, x, [], rfl, h, by simp⟩

theorem EverAdmitted.snoc (h : EverAdmitted tr p) : EverAdmitted (tr ++ [x]) p := by
  obtain ⟨y, hy, hactive⟩ := h
  exact ⟨y, List.mem_append_left _ hy, hactive⟩

theorem Welcomed.snoc (h : Welcomed tr p) : Welcomed (tr ++ [x]) p := by
  obtain ⟨pre, y, post, rfl, hy⟩ := h
  exact ⟨pre, y, post ++ [x], by simp, hy⟩

end

namespace Daemon

section

variable {d d' : Daemon κ} {e : Event κ lib} {p : String}

theorem Queues.registered {command : MediaCommand} (h : Queues command d d')
    (hr : d'.Registered p) : d.Registered p ∨ command = .registerPeer p := by
  by_cases hc : command = .registerPeer p
  · exact .inr hc
  · left
    apply (queueMedia_spares hc d).registered
    exact (Spares.of_engine h.1 h.2).registered hr

theorem Queues.silent {command : MediaCommand} (h : Queues command d d') (hs : d.Silent p) :
    d'.Silent p := by
  refine (Spares.of_engine h.1 h.2).silent fun rt hrt => hs rt ?_
  unfold queueMedia at hrt
  split at hrt <;> exact hrt

/-- A step that gives a peer a runtime surfaces or admits it, or runs its flow
or hands over its frame; only the last gives it something to play. -/
theorem Move.media (h : Move d e d') (p : String) :
    (d'.Registered p → d.Registered p ∨ d.Surfaces e p ∨ d.Admits e p ∨ d.Delivers e p ∨
      p ∈ d.activeMediaFlows) ∧
    (d.Silent p → d'.Silent p ∨ d.Delivers e p) := by
  cases h with
  | quiet _ ha =>
    have hs : Spares p d d' := .of_engine ha.engine.1 ha.engine.2
    exact ⟨fun hr => .inl (hs.registered hr), fun h => .inl (hs.silent h)⟩
  | identified _ _ he _ =>
    have hs : Spares p d d' := .of_engine he.1 he.2
    exact ⟨fun hr => .inl (hs.registered hr), fun h => .inl (hs.silent h)⟩
  | surfaced hs _ hq _ =>
    refine ⟨fun hr => (hq.registered hr).imp id fun hc => ?_, fun h => .inl (hq.silent h)⟩
    cases hc
    exact .inl hs
  | admitted ha _ hq _ =>
    refine ⟨fun hr => (hq.registered hr).imp id fun hc => ?_, fun h => .inl (hq.silent h)⟩
    cases hc
    exact .inr (.inl ha)
  | closed _ _ _ hq _ =>
    refine ⟨fun hr => (hq.registered hr).imp id fun hc => ?_, fun h => .inl (hq.silent h)⟩
    cases hc
  | engine _ _ _ hs =>
    exact ⟨fun hr => .inl ((hs p).registered hr), fun h => .inl ((hs p).silent h)⟩
  | @delivered q hd _ _ hs =>
    by_cases hp : p = q
    · subst hp
      exact ⟨fun _ => .inr (.inr (.inr (.inl hd))), fun _ => .inr hd⟩
    · exact ⟨fun hr => .inl ((hs p hp).registered hr), fun h => .inl ((hs p hp).silent h)⟩
  | @ticked q _ _ _ hflow _ _ hs hsilent =>
    by_cases hp : p = q
    · subst hp
      exact ⟨fun _ => .inr (.inr (.inr (.inr hflow))), fun h => .inl (hsilent h)⟩
    · exact ⟨fun hr => .inl ((hs p hp).registered hr), fun h => .inl ((hs p hp).silent h)⟩
  | spent _ _ _ _ he _ =>
    have hs : Spares p d d' := .of_engine he.1 he.2
    exact ⟨fun hr => .inl (hs.registered hr), fun h => .inl (hs.silent h)⟩

theorem not_silent_of_pushed {π : Profile} {samples : κ.Pcm}
    (h : .pushPeerPcm p samples ∈ (d.handle π lib e).2) : ¬ d.Silent p := by
  cases e with
  | playout now peerIds => exact fun hs => hs.not_pushed h
  | connectionEstablished peer endpoint =>
    simp only [handle, onConnectionEstablished, sendSessionHello] at h
    split_ifs at h <;> simp at h
  | outgoingConnectionError peer dialed =>
    exact absurd h
      ((onOutgoingConnectionError_bookOnly d _ dialed).2.not_mem (by simp) (by simp))
  | foundRecord query invite dialed =>
    exact absurd h ((onFoundRecord_bookOnly d query invite dialed).2.not_mem (by simp) (by simp))
  | dial address query dialed =>
    exact absurd h ((dialPeer_bookOnly d address query dialed).2.not_mem (by simp) (by simp))
  | sessionHello peer hello channel =>
    simp only [handle, onSessionHello, applyApprovedSessionHello] at h
    split_ifs at h <;> simp at h
  | sessionHelloAck peer hello =>
    simp only [handle, onSessionHelloAck] at h
    split_ifs at h <;> simp at h
  | approvePendingPeer peerId whitelist =>
    simp only [handle, approvePendingPeer, applyApprovedSessionHello] at h
    split at h <;> simp at h
  | rejectPendingPeer peerId =>
    simp only [handle, rejectPendingPeer] at h
    split at h <;> simp at h
  | mediaRequest peer request =>
    obtain ⟨_, _, h⟩ | ⟨_, h⟩ := onMediaRequest_effects h <;> cases h
  | sendMediaFrame peerId pcm nowMs =>
    obtain ⟨_, _, h⟩ := onSendMediaFrame_effects h
    cases h
  | followUp index =>
    simp only [handle] at h
    split at h <;> simp at h
  | _ => simp [handle] at h

end

end Daemon

/-- What holds after a guarded run: a flow belongs to an admitted peer, a
runtime to one that was admitted or welcomed, and only a peer that was
admitted has something to play. -/
structure MediaInvariant (tr : List (DaemonTransition κ lib)) (d : Daemon κ) : Prop where
  flows : ∀ peerId ∈ d.activeMediaFlows, Admitted tr peerId
  registered : ∀ peerId, d.Registered peerId → EverAdmitted tr peerId ∨ Welcomed tr peerId
  silent : ∀ peerId, ¬ EverAdmitted tr peerId → d.Silent peerId

theorem mediaInvariant_start (status : DaemonStatus) :
    MediaInvariant ([] : List (DaemonTransition κ lib)) (Daemon.start status) where
  flows peerId h := by simp [Daemon.start] at h
  registered peerId h := by simp [Daemon.Registered, Daemon.runtime, Daemon.start] at h
  silent peerId _ runtime h := by simp [Daemon.runtime, Daemon.start] at h

section

variable {tr : List (DaemonTransition κ lib)} {x : DaemonTransition κ lib} {π : Profile}

theorem MediaInvariant.step (h : MediaInvariant tr x.before)
    (hstep : daemonStep π lib x.before x.input = some (x.output, x.after))
    (hguard : MediaGuard tr x) : MediaInvariant (tr ++ [x]) x.after := by
  obtain ⟨hout, hafter⟩ := daemonStep_eq hstep
  have hmove : Daemon.Move x.before x.input x.after := hafter ▸ x.before.handle_move π x.input
  have hactive : ∀ p, x.before.Admits x.input p → .sessionActive p ∈ x.output := by
    intro p ha
    rw [hout]
    exact (x.before.sessionActive_mem_iff π x.input p).mpr ha
  have hflow : ∀ p ∈ x.before.activeMediaFlows, EverAdmitted (tr ++ [x]) p := fun p hp =>
    (h.flows p hp).ever.snoc
  refine ⟨fun p hp => ?_, fun p hr => ?_, fun p hnever => ?_⟩
  · cases hmove.flowStep p with
    | same hf _ _ hclosed => exact (h.flows p (hf.mp hp)).snoc fun peer he => hclosed peer 0 he
    | opened ha _ _ _ => exact admitted_of_active (hactive p ha)
    | closed hf _ _ => exact absurd hp hf
    | spent hf _ _ => exact absurd hp hf
  · rcases (hmove.media p).1 hr with hr | hs | ha | hd | hin
    · exact (h.registered p hr).imp EverAdmitted.snoc Welcomed.snoc
    · exact .inr ⟨tr, x, [], rfl, hguard.surfaced p hs⟩
    · exact .inl (admitted_of_active (hactive p ha)).ever
    · exact .inl (hflow p (hguard.delivered p hd))
    · exact .inl (hflow p hin)
  · rcases (hmove.media p).2 (h.silent p fun hever => hnever hever.snoc) with hs | hd
    · exact hs
    · exact absurd (hflow p (hguard.delivered p hd)) hnever

theorem MediaInvariant.gate (h : MediaInvariant tr x.before)
    (hstep : daemonStep π lib x.before x.input = some (x.output, x.after))
    (hguard : MediaGuard tr x) : MediaGate tr x where
  accepted p ha := h.flows p (hguard.delivered p ha.1)
  runtime p hr := (h.step hstep hguard).registered p (.inl hr)
  pushed p samples hp := by
    by_contra hnever
    rw [(daemonStep_eq hstep).1] at hp
    exact Daemon.not_silent_of_pushed hp (h.silent p hnever)

/-- As long as frames come from peers with a flow and only welcome peers are
surfaced, the media of a peer that was not admitted is neither taken nor
played. -/
theorem media_admission {status : DaemonStatus} {events : List (Event κ lib)} {d : Daemon κ}
    (h : daemonRun π lib status events = some (tr, d)) (hguard : Along MediaGuard tr) :
    Along MediaGate tr :=
  ((daemonRun_trace h).along (mediaInvariant_start status)
    (fun _ _ hstep hg hi => hi.step hstep hg) (fun _ _ hstep hg hi => hi.gate hstep hg) hguard).2

end

def Event.frameOf (peerId : String) : Event κ lib → Bool
  | .mediaRequest peer (.frame _) => peer.text = peerId
  | _ => false

def Effect.answers (peerId : String) : Effect κ → Bool
  | .respondMedia answered _ => answered = peerId
  | _ => false

def Effect.plays (peerId : String) : Effect κ → Bool
  | .pushPeerPcm played _ => played = peerId
  | _ => false

theorem Event.delivers_of_frameOf {d : Daemon κ} {e : Event κ lib} {peerId : String}
    (h : e.frameOf peerId = true) : d.Delivers e peerId := by
  cases e with
  | mediaRequest peer request =>
    cases request with
    | frame frame =>
      have hp : peer.text = peerId := of_decide_eq_true h
      exact hp
    | relayedFrame destination frame => simp [Event.frameOf] at h
  | _ => simp [Event.frameOf] at h

theorem Event.eq_of_delivers {d : Daemon κ} {e : Event κ lib} {peerId q : String}
    (h : e.frameOf peerId = true) (hd : d.Delivers e q) : q = peerId := by
  cases e with
  | mediaRequest peer request =>
    cases request with
    | frame frame => exact (show peer.text = q from hd).symm.trans (of_decide_eq_true h)
    | relayedFrame destination frame => simp [Event.frameOf] at h
  | _ => simp [Event.frameOf] at h

theorem Effect.answers_iff {x : Effect κ} {peerId : String} :
    x.answers peerId = true ↔ ∃ response, x = .respondMedia peerId response := by
  cases x <;> simp [Effect.answers]

theorem Effect.plays_iff {x : Effect κ} {peerId : String} :
    x.plays peerId = true ↔ ∃ samples, x = .pushPeerPcm peerId samples := by
  cases x <;> simp [Effect.plays]

def threeFrames : List (Event silentCodec sampleLibp2p) :=
  [.mediaRequest remote (.frame (audioFrame 1 0)), .mediaRequest remote (.frame (audioFrame 2 960)),
    .mediaRequest remote (.frame (audioFrame 3 1920))]

theorem media_admission_whitelistedFriend :
    ∃ tr d, daemonRun .release sampleLibp2p (sampleStatus friendBook)
        (firstCall ++ threeFrames) = some (tr, d) ∧
      (d.runtime remotePeer).isSome = true ∧ Along MediaGate tr := by
  have h : (daemonRun .release sampleLibp2p (sampleStatus friendBook)
      (firstCall ++ threeFrames)).map (fun r =>
        (r.1.all (fun x => (x.input.callOf remotePeer ||
            (x.input.frameOf remotePeer && decide (remotePeer ∈ x.before.activeMediaFlows))) &&
          x.before.status.pendingPeerApprovals.isEmpty),
        (r.2.runtime remotePeer).isSome)) = some (true, true) := by decide +kernel
  obtain ⟨⟨tr, d⟩, hrun, hd⟩ := Option.map_eq_some_iff.mp h
  obtain ⟨hall, hsome⟩ := Prod.mk.inj hd
  have hcheck : ∀ x ∈ tr, (x.input.callOf remotePeer = true ∨ (x.input.frameOf remotePeer = true ∧
      remotePeer ∈ x.before.activeMediaFlows)) ∧ x.before.status.pendingPeerApprovals = [] := by
    intro x hx
    simpa using List.all_eq_true.mp hall x hx
  refine ⟨tr, d, hrun, hsome, media_admission hrun fun pre x post heq => ?_⟩
  obtain ⟨hin, hempty⟩ := hcheck x (heq ▸ List.mem_append_right _ List.mem_cons_self)
  refine ⟨fun p hp => ?_, fun p hp => ⟨hp, .inr ⟨?_, ?_⟩⟩⟩
  · rcases hin with hcall | ⟨hframe, hflow⟩
    · cases he : x.input with
      | mediaRequest peer request => simp [he, Event.callOf] at hcall
      | _ => simp [he, Daemon.Delivers] at hp
    · rwa [Event.eq_of_delivers hframe hp]
  · simp [DaemonStatus.Holds, hempty]
  · rintro ⟨a, y, b, rfl, hy, _, _⟩
    obtain ⟨hy', _⟩ := hcheck y (by simp [heq])
    simp [hy, Event.callOf, Event.frameOf] at hy'

/-- A stranger connects, is not surfaced, and sends three frames. -/
def strangerFrames : List (Event silentCodec sampleLibp2p) :=
  .connectionEstablished remote incoming :: threeFrames ++
    [.playout (millis 100) [remotePeer]]

theorem strangerFrames_played :
    ∃ tr d, daemonRun .release sampleLibp2p (sampleStatus emptyBook) strangerFrames =
        some (tr, d) ∧
      (∃ x ∈ tr, Accepts x remotePeer) ∧ (d.runtime remotePeer).isSome = true ∧
      ¬ EverAdmitted tr remotePeer ∧ ¬ Along MediaGate tr := by
  have h : (daemonRun .release sampleLibp2p (sampleStatus emptyBook) strangerFrames).map (fun r =>
      (r.1.any (fun x => x.input.frameOf remotePeer && x.output.any (Effect.answers remotePeer)),
        (r.2.runtime remotePeer).isSome,
        r.1.any (fun x => x.output.any (Effect.admits remotePeer)),
        r.1.any (fun x => x.output.any (Effect.plays remotePeer)))) =
      some (true, true, false, true) := by decide +kernel
  obtain ⟨⟨tr, d⟩, hrun, hd⟩ := Option.map_eq_some_iff.mp h
  simp only [Prod.mk.injEq] at hd
  obtain ⟨htaken, hsome, hadmits, hplays⟩ := hd
  have hnever : ¬ EverAdmitted tr remotePeer := by
    rintro ⟨x, hx, hactive⟩
    have htrue : tr.any (fun x => x.output.any (Effect.admits remotePeer)) = true :=
      List.any_eq_true.mpr ⟨x, hx, List.any_eq_true.mpr ⟨_, hactive, Effect.admits_iff.mpr rfl⟩⟩
    rw [hadmits] at htrue
    cases htrue
  refine ⟨tr, d, hrun, ?_, hsome, hnever, fun hgate => ?_⟩
  · obtain ⟨x, hx, htaken⟩ := List.any_eq_true.mp htaken
    obtain ⟨hframe, hanswer⟩ := Bool.and_eq_true_iff.mp htaken
    obtain ⟨effect, heffect, hanswers⟩ := List.any_eq_true.mp hanswer
    obtain ⟨response, rfl⟩ := Effect.answers_iff.mp hanswers
    exact ⟨x, hx, Event.delivers_of_frameOf hframe, response, heffect⟩
  · obtain ⟨x, hx, hplayed⟩ := List.any_eq_true.mp hplays
    obtain ⟨effect, heffect, hplays⟩ := List.any_eq_true.mp hplayed
    obtain ⟨samples, rfl⟩ := Effect.plays_iff.mp hplays
    obtain ⟨pre, post, rfl⟩ := List.append_of_mem hx
    obtain ⟨y, hy, hactive⟩ := (hgate pre x post rfl).pushed remotePeer samples heffect
    exact hnever ⟨y, List.mem_append_left _ hy, hactive⟩

end Voicers
