import Voicers.Media.Receive
import Voicers.Network.Contacts

/-! The lookups of a daemon in the DHT (`dial_peer` in `network.rs`, the records
found in `network/swarm_events.rs`): which of the records that a query finds are
acted on, in any run. -/

namespace Voicers

open Lib

variable {κ : Codec} {lib : Libp2p}

/-- The lookup that a dial of the address begins, where it cannot be dialed. -/
def begunLookup (lib : Libp2p) (network : NetworkSummary) (address : String) :
    Option PendingRendezvousLookup :=
  let ranked := resolveRankedDialTarget lib network address
  match lib.parseMultiaddr ranked.primary, ranked.peerId with
  | some _, _ => none
  | none, some peerId => some (.peerId peerId)
  | none, none => some (.room (trim address) [])

/-- A record of the peer would still be acted on. -/
def PendingRendezvousLookup.Awaits (peerId : String) : PendingRendezvousLookup → Prop
  | .peerId requested => requested = peerId
  | .room _ resolvedPeers => peerId ∉ resolvedPeers

/-- The lookup after a record of the peer that names addresses. -/
def PendingRendezvousLookup.resolved (peerId : String) (lookup : PendingRendezvousLookup) :
    Option PendingRendezvousLookup :=
  match lookup with
  | .peerId requested => if peerId = requested then none else some lookup
  | .room roomName resolvedPeers =>
    if peerId ∈ resolvedPeers then some lookup else some (.room roomName (peerId :: resolvedPeers))

namespace Daemon

/-- The lookups after each event. -/
def lookupsAfter (d : Daemon κ) : Event κ lib → Nat → Option PendingRendezvousLookup
  | .foundRecord query invite _ =>
    if invite.addrs = [] then d.pendingRendezvousLookups
    else Function.update d.pendingRendezvousLookups query
      ((d.pendingRendezvousLookups query).bind (·.resolved invite.peerId))
  | .lookupFinished query => Function.update d.pendingRendezvousLookups query none
  | .dial address query _ =>
    match begunLookup lib d.status.network address with
    | some lookup => Function.update d.pendingRendezvousLookups query (some lookup)
    | none => d.pendingRendezvousLookups
  | _ => d.pendingRendezvousLookups

section

variable {d d' : Daemon κ}

theorem MediaOnly.lookups (h : d.MediaOnly d') :
    d'.pendingRendezvousLookups = d.pendingRendezvousLookups := by
  obtain ⟨_, _, _, rfl, _⟩ := h
  rfl

theorem queueMedia_lookups (d : Daemon κ) (command : MediaCommand) :
    (d.queueMedia command).pendingRendezvousLookups = d.pendingRendezvousLookups :=
  (d.queueMedia_mediaOnly command).lookups

theorem openFlow_lookups (d : Daemon κ) (peerId : String) :
    (d.openFlow peerId).pendingRendezvousLookups = d.pendingRendezvousLookups := by
  unfold openFlow
  split_ifs
  · rfl
  · rfl

theorem dialRankedTarget_lookups (d : Daemon κ) (ranked : RankedDialTarget) (dialed : Bool) :
    (d.dialRankedTarget ranked dialed).1.pendingRendezvousLookups = d.pendingRendezvousLookups := by
  unfold dialRankedTarget
  split_ifs
  · split
    · rfl
    · rfl
  · rfl

theorem dialPeer_lookups (d : Daemon κ) (address : String) (query : Nat) (dialed : Bool) :
    (d.dialPeer lib address query dialed).1.pendingRendezvousLookups =
      d.lookupsAfter (.dial address query dialed : Event κ lib) := by
  unfold dialPeer lookupsAfter begunLookup
  dsimp only
  cases lib.parseMultiaddr (resolveRankedDialTarget lib d.status.network address).primary with
  | some multiaddr => exact dialRankedTarget_lookups d _ dialed
  | none =>
    cases (resolveRankedDialTarget lib d.status.network address).peerId with
    | some peerId => rfl
    | none => rfl

theorem dialFoundPeer_lookups (d : Daemon κ) (invite : CompactInviteV1) (dialed : Bool) :
    (d.dialFoundPeer lib invite dialed).1.pendingRendezvousLookups = d.pendingRendezvousLookups := by
  simp only [dialFoundPeer]
  split_ifs
  · exact dialRankedTarget_lookups _ _ dialed
  · rfl

theorem onFoundRecord_lookups (d : Daemon κ) (query : Nat) (invite : CompactInviteV1)
    (dialed : Bool) : (d.onFoundRecord lib query invite dialed).1.pendingRendezvousLookups =
      d.lookupsAfter (.foundRecord query invite dialed : Event κ lib) := by
  have hsame (lookup : Option PendingRendezvousLookup)
      (hlookup : d.pendingRendezvousLookups query = lookup) :
      d.pendingRendezvousLookups = Function.update d.pendingRendezvousLookups query lookup := by
    rw [← hlookup, Function.update_eq_self]
  have hafter : d.lookupsAfter (.foundRecord query invite dialed : Event κ lib) =
      if invite.addrs = [] then d.pendingRendezvousLookups
      else Function.update d.pendingRendezvousLookups query
        ((d.pendingRendezvousLookups query).bind (·.resolved invite.peerId)) := rfl
  rw [hafter, onFoundRecord]
  by_cases haddrs : invite.addrs = []
  · rw [if_pos haddrs]
    split
    · rfl
    · rw [if_neg fun h => h.2 haddrs]
    · rw [if_neg fun h => h.1 haddrs]
  · rw [if_neg haddrs]
    cases hlookup : d.pendingRendezvousLookups query with
    | none => exact hsame none hlookup
    | some lookup =>
      cases lookup with
      | peerId requested =>
        by_cases hpeer : invite.peerId = requested
        · simp only [hpeer, haddrs, ne_eq, not_false_eq_true, and_self, if_true, Option.bind_some,
            PendingRendezvousLookup.resolved]
          rw [dialFoundPeer_lookups]
          rfl
        · simp only [hpeer, false_and, if_false, Option.bind_some, PendingRendezvousLookup.resolved]
          exact hsame _ hlookup
      | room roomName resolvedPeers =>
        by_cases hpeer : invite.peerId ∈ resolvedPeers
        · simp only [hpeer, not_true_eq_false, and_false, if_false, if_true, Option.bind_some,
            PendingRendezvousLookup.resolved]
          exact hsame _ hlookup
        · simp only [hpeer, haddrs, ne_eq, not_false_eq_true, and_self, if_true, if_false,
            Option.bind_some, PendingRendezvousLookup.resolved]
          rw [dialFoundPeer_lookups]
          rfl

theorem applyApprovedSessionHello_lookups (d : Daemon κ) (peerId : String) (hello : SessionHello)
    (channel : Nat) :
    (d.applyApprovedSessionHello lib peerId hello channel).1.pendingRendezvousLookups =
      d.pendingRendezvousLookups := by
  have hqueued := queueMedia_lookups
    (d.withStatus fun status => applySessionHello lib status peerId hello) (.registerPeer peerId)
  simp only [applyApprovedSessionHello]
  split_ifs
  · exact hqueued
  · rw [openFlow_lookups]
    exact hqueued

theorem sendSessionHello_lookups (c : Prop) [Decidable c] (d : Daemon κ) (peerId : String)
    (hello : SessionHello) :
    (if c then sendSessionHello lib d peerId hello else (d, [])).1.pendingRendezvousLookups =
      d.pendingRendezvousLookups := by
  obtain ⟨requests, hsend⟩ := sendSessionHello_if lib c d peerId hello
  rw [hsend]

theorem onConnectionEstablished_lookups (d : Daemon κ) (peerId : String) (endpoint : Endpoint) :
    (d.onConnectionEstablished lib peerId endpoint).1.pendingRendezvousLookups =
      d.pendingRendezvousLookups := by
  simp only [onConnectionEstablished]
  by_cases hsurface :
      shouldSurfaceConnectedPeer d.status peerId (d.pendingDials peerId).isSome = true
  · rw [if_pos hsurface, sendSessionHello_lookups, queueMedia_lookups]
    rfl
  · rw [if_neg hsurface]
    rfl

theorem onConnectionClosed_lookups (d : Daemon κ) (peerId : String) (n : Nat) :
    (d.onConnectionClosed peerId n).pendingRendezvousLookups = d.pendingRendezvousLookups := by
  simp only [onConnectionClosed, queueMedia_lookups]
  split_ifs
  · rfl
  · rfl

theorem onOutgoingConnectionError_lookups (d : Daemon κ) (peerId : Option String) (dialed : Bool) :
    (d.onOutgoingConnectionError lib peerId dialed).1.pendingRendezvousLookups =
      d.pendingRendezvousLookups := by
  simp only [onOutgoingConnectionError]
  split
  · split
    · rfl
    · split_ifs
      · rfl
      · rfl
  · rfl

theorem onIdentifyReceived_lookups (d : Daemon κ) (peerId : String) (info : IdentifyInfo) :
    (d.onIdentifyReceived lib peerId info).pendingRendezvousLookups =
      d.pendingRendezvousLookups := by
  simp only [onIdentifyReceived]
  split_ifs
  all_goals rfl

theorem onMediaRequest_lookups (π : Profile) (d : Daemon κ) (peerId : String)
    (request : MediaRequest) : (d.onMediaRequest π lib peerId request).1.pendingRendezvousLookups =
      d.pendingRendezvousLookups := by
  have hcall (frame : MediaFrame) : (d.callMedia fun status peers =>
      handleIncomingFrame π status peers peerId frame).2.pendingRendezvousLookups =
        d.pendingRendezvousLookups :=
    (d.callMedia_mediaOnly fun _ _ _ _ _ h => (handleIncomingFrame_callFor h).status).lookups
  cases request with
  | frame frame => exact hcall frame
  | relayedFrame destination frame =>
    simp only [onMediaRequest]
    split_ifs
    · exact hcall frame
    · rfl
    · rfl

theorem onSendMediaFrame_lookups (π : Profile) (d : Daemon κ) (peerId : String) (pcm : κ.Pcm)
    (nowMs : UInt64) : (d.onSendMediaFrame π lib peerId pcm nowMs).1.pendingRendezvousLookups =
      d.pendingRendezvousLookups := by
  have hbuild (b : Daemon κ) (q : String) : (b.callMedia fun status peers =>
      buildNextAudioFrame π status peers q pcm nowMs).2.pendingRendezvousLookups =
        b.pendingRendezvousLookups :=
    (b.callMedia_mediaOnly fun _ _ _ _ _ h => (buildNextAudioFrame_callFor h).1.status).lookups
  simp only [onSendMediaFrame]
  split_ifs
  · rfl
  · simp only [runMediaTick]
    split
    · dsimp only [scheduleMediaTick, withStatus]
      split_ifs
      · exact hbuild _ peerId
      · rfl
    · split_ifs
      · rfl
      · dsimp only [scheduleMediaTick, withStatus]
        exact hbuild _ _
    · rfl
  · rfl

theorem handle_lookups (π : Profile) (d : Daemon κ) (e : Event κ lib) :
    (d.handle π lib e).1.pendingRendezvousLookups = d.lookupsAfter e := by
  cases e with
  | connectionEstablished peer endpoint => exact onConnectionEstablished_lookups d _ endpoint
  | connectionClosed peer n => exact onConnectionClosed_lookups d peer.text n
  | outgoingConnectionError peer dialed => exact onOutgoingConnectionError_lookups d _ dialed
  | identifyReceived peer info => exact onIdentifyReceived_lookups d peer.text info
  | foundRecord query invite dialed => exact onFoundRecord_lookups d query invite dialed
  | sessionHello peer hello channel =>
    simp only [handle, onSessionHello]
    split_ifs
    · exact applyApprovedSessionHello_lookups _ peer.text hello channel
    · rfl
  | sessionHelloAck peer hello =>
    simp only [handle, onSessionHelloAck]
    split_ifs
    · rfl
    · rw [openFlow_lookups, queueMedia_lookups]
      rfl
  | mediaRequest peer request => exact onMediaRequest_lookups π d peer.text request
  | mediaResponse peer response =>
    cases response with
    | ack ack => exact queueMedia_lookups d _
    | relayAck destination ack => exact queueMedia_lookups d _
    | relayDenied destination reason => rfl
  | dial address query dialed => exact dialPeer_lookups d address query dialed
  | approvePendingPeer peerId whitelist =>
    cases hheld : d.pendingInboundApprovals peerId with
    | none => simp only [handle, approvePendingPeer, hheld, lookupsAfter]
    | some pending =>
      simp only [handle, approvePendingPeer, hheld]
      exact applyApprovedSessionHello_lookups _ peerId pending.hello pending.channel
  | rejectPendingPeer peerId =>
    cases hheld : d.pendingInboundApprovals peerId with
    | none => simp only [handle, rejectPendingPeer, hheld, lookupsAfter]
    | some pending => simp only [handle, rejectPendingPeer, hheld, lookupsAfter]
  | sendMediaFrame peerId pcm nowMs => exact onSendMediaFrame_lookups π d peerId pcm nowMs
  | mediaCommand => exact d.runNextMediaCommand_mediaOnly.lookups
  | playout now peerIds => exact (onPlayout_mediaOnly π d now peerIds).lookups
  | followUp index =>
    cases hf : d.followUps[index]? with
    | none => simp only [handle, hf, lookupsAfter]
    | some followUp => simp only [handle, hf, lookupsAfter]
  | _ => rfl

end

end Daemon

/-- The event begins a lookup under which a record of the peer is acted on. -/
def Asks (query : Nat) (peerId : String) (x : DaemonTransition κ lib) : Prop :=
  ∃ address dialed lookup, x.input = .dial address query dialed ∧
    begunLookup lib x.before.status.network address = some lookup ∧ lookup.Awaits peerId

/-- The event ends the wait for a record of the peer: the query is over, or a
new lookup goes by its number, or there was such a record. -/
def Settles (query : Nat) (peerId : String) (x : DaemonTransition κ lib) : Prop :=
  x.input = .lookupFinished query ∨
    (∃ address dialed, x.input = .dial address query dialed ∧
      begunLookup lib x.before.status.network address ≠ none) ∨
    ∃ invite dialed, x.input = .foundRecord query invite dialed ∧ invite.peerId = peerId ∧
      invite.addrs ≠ []

theorem awaits_resolved {peerId other : String} {lookup : PendingRendezvousLookup} :
    (∃ next, lookup.resolved other = some next ∧ next.Awaits peerId) ↔
      lookup.Awaits peerId ∧ other ≠ peerId := by
  cases lookup with
  | peerId requested =>
    by_cases hother : other = requested
    · subst hother
      simp [PendingRendezvousLookup.resolved, PendingRendezvousLookup.Awaits]
    · simp only [PendingRendezvousLookup.resolved, if_neg hother, Option.some.injEq,
        exists_eq_left', PendingRendezvousLookup.Awaits]
      refine ⟨fun h => ⟨h, fun heq => hother (heq.trans h.symm)⟩, And.left⟩
  | room roomName resolvedPeers =>
    by_cases hother : other ∈ resolvedPeers
    · simp only [PendingRendezvousLookup.resolved, if_pos hother, Option.some.injEq,
        exists_eq_left', PendingRendezvousLookup.Awaits]
      refine ⟨fun h => ⟨h, ?_⟩, And.left⟩
      rintro rfl
      exact h hother
    · simp only [PendingRendezvousLookup.resolved, if_neg hother, Option.some.injEq,
        exists_eq_left', PendingRendezvousLookup.Awaits, List.mem_cons, not_or]
      exact ⟨fun h => ⟨h.2, Ne.symm h.1⟩, fun h => ⟨Ne.symm h.2, h.1⟩⟩

section

variable {π : Profile} {x : DaemonTransition κ lib} {tr : List (DaemonTransition κ lib)}
  {status : DaemonStatus} {d : Daemon κ} {query : Nat} {peerId : String}

/-- Whether a record of the peer would be acted on, after one event. -/
theorem awaits_step (h : daemonStep π lib x.before x.input = some (x.output, x.after)) :
    (∃ lookup ∈ x.after.pendingRendezvousLookups query, lookup.Awaits peerId) ↔
      Asks query peerId x ∨
        (∃ lookup ∈ x.before.pendingRendezvousLookups query, lookup.Awaits peerId) ∧
          ¬ Settles query peerId x := by
  obtain ⟨-, hafter⟩ := daemonStep_eq h
  rw [hafter, Daemon.handle_lookups]
  -- an event that is about no lookup with this number changes nothing
  have hother (hsame : x.before.lookupsAfter x.input query = x.before.pendingRendezvousLookups query)
      (hasks : ¬ Asks query peerId x) (hsettles : ¬ Settles query peerId x) :
      (∃ lookup ∈ x.before.lookupsAfter x.input query, lookup.Awaits peerId) ↔
        Asks query peerId x ∨
          (∃ lookup ∈ x.before.pendingRendezvousLookups query, lookup.Awaits peerId) ∧
            ¬ Settles query peerId x := by
    rw [hsame]
    exact ⟨fun hawaits => .inr ⟨hawaits, hsettles⟩, fun h => (h.resolve_left hasks).1⟩
  cases hinput : x.input with
  | foundRecord q invite dialed =>
    rw [hinput] at hother
    have hasks : ¬ Asks query peerId x := by simp [Asks, hinput]
    by_cases hq : q = query
    · subst hq
      have hsettles : Settles q peerId x ↔ invite.peerId = peerId ∧ invite.addrs ≠ [] := by
        simp [Settles, hinput]
      by_cases haddrs : invite.addrs = []
      · exact hother (congrFun (if_pos haddrs) q) hasks fun h => (hsettles.mp h).2 haddrs
      · have hupdated : x.before.lookupsAfter (.foundRecord q invite dialed : Event κ lib) q =
            (x.before.pendingRendezvousLookups q).bind (·.resolved invite.peerId) :=
          (congrFun (if_neg haddrs) q).trans (Function.update_self ..)
        rw [hsettles, hupdated]
        cases x.before.pendingRendezvousLookups q with
        | none => simp [hasks]
        | some lookup => simp [hasks, haddrs, awaits_resolved]
    · refine hother ?_ hasks (by simp [Settles, hinput, hq])
      unfold Daemon.lookupsAfter
      dsimp only
      split_ifs
      · rfl
      · exact Function.update_of_ne (Ne.symm hq) _ _
  | lookupFinished q =>
    rw [hinput] at hother
    by_cases hq : q = query
    · subst hq
      simp [Daemon.lookupsAfter, Asks, Settles, hinput]
    · exact hother (Function.update_of_ne (Ne.symm hq) _ _) (by simp [Asks, hinput])
        (by simp [Settles, hinput, hq])
  | dial address q dialed =>
    rw [hinput] at hother
    by_cases hq : q = query
    · subst hq
      cases hbegun : begunLookup lib x.before.status.network address with
      | none =>
        exact hother (by simp [Daemon.lookupsAfter, hbegun]) (by simp [Asks, hinput, hbegun])
          (by simp [Settles, hinput, hbegun])
      | some lookup => simp [Daemon.lookupsAfter, Asks, Settles, hinput, hbegun]
    · refine hother ?_ (by simp [Asks, hinput, hq]) (by simp [Settles, hinput, hq])
      cases hbegun : begunLookup lib x.before.status.network address with
      | none => simp [Daemon.lookupsAfter, hbegun]
      | some lookup => simp [Daemon.lookupsAfter, hbegun, Function.update_of_ne (Ne.symm hq)]
  | _ =>
    rw [hinput] at hother
    exact hother rfl (by simp [Asks, hinput]) (by simp [Settles, hinput])

theorem awaits_run (h : Trace (daemonStep π lib) (Daemon.start status) tr d) (query : Nat)
    (peerId : String) : (∃ lookup ∈ d.pendingRendezvousLookups query, lookup.Awaits peerId) ↔
      Since (Asks query peerId) (Settles query peerId) tr := by
  refine h.snoc_induction (P := fun tr d =>
    (∃ lookup ∈ d.pendingRendezvousLookups query, lookup.Awaits peerId) ↔
      Since (Asks query peerId) (Settles query peerId) tr) ?_ ?_
  · refine iff_of_false ?_ (not_since_nil _ _)
    rintro ⟨_, hmem, -⟩
    cases hmem
  · intro tr x _ hstep ih
    rw [since_snoc, awaits_step hstep, ih]

theorem adopts_iff (d : Daemon κ) (query : Nat) (invite : CompactInviteV1) :
    d.adopts query invite = true ↔ invite.addrs ≠ [] ∧
      ∃ lookup ∈ d.pendingRendezvousLookups query, lookup.Awaits invite.peerId := by
  unfold Daemon.adopts
  cases d.pendingRendezvousLookups query with
  | none => simp
  | some lookup =>
    cases lookup with
    | peerId requested =>
      constructor
      · intro h
        obtain ⟨hpeer, haddrs⟩ := of_decide_eq_true h
        exact ⟨haddrs, _, rfl, hpeer.symm⟩
      · rintro ⟨haddrs, _, hlookup, hawaits⟩
        cases hlookup
        exact decide_eq_true ⟨Eq.symm hawaits, haddrs⟩
    | room roomName resolvedPeers => simp [PendingRendezvousLookup.Awaits]

/-- A record that a query finds is acted on when it names addresses and its
peer is still awaited: a lookup that asks for it has begun by that number, is
not over, and has had no such record. Then the addresses enter the book and the
peer is dialed; any other record changes nothing. -/
theorem records_answered (h : Trace (daemonStep π lib) (Daemon.start status) tr d) :
    Along (fun pre x => ∀ query invite dialed, x.input = .foundRecord query invite dialed →
      (invite.addrs ≠ [] ∧
          Since (Asks query invite.peerId) (Settles query invite.peerId) pre →
        ∃ lookup, (x.after, x.output) =
          (x.before.setLookup query lookup).dialFoundPeer lib invite dialed) ∧
      (¬ (invite.addrs ≠ [] ∧
          Since (Asks query invite.peerId) (Settles query invite.peerId) pre) →
        x.after = x.before ∧ x.output = [])) tr := by
  rintro pre x post rfl query invite dialed hinput
  obtain ⟨hpre, hstep, -⟩ := h.split
  obtain ⟨hout, hafter⟩ := daemonStep_eq hstep
  have hadopts := adopts_iff x.before query invite
  rw [awaits_run hpre] at hadopts
  obtain ⟨lookup, hfound⟩ := @Daemon.onFoundRecord_eq κ lib x.before query invite dialed
  have hhandle : x.before.handle π lib x.input =
      x.before.onFoundRecord lib query invite dialed := by rw [hinput]; rfl
  rw [hhandle, hfound] at hout hafter
  constructor
  · intro hawaited
    rw [if_pos (hadopts.mpr hawaited)] at hout hafter
    exact ⟨lookup, by rw [hout, hafter]⟩
  · intro hidle
    rw [if_neg fun hadopted => hidle (hadopts.mp hadopted)] at hout hafter
    exact ⟨hafter, hout⟩

end

def foundAddress : String := "/ip4/203.0.113.4/tcp/4001/p2p/" ++ remotePeer

def lookupLibp2p : Libp2p :=
  { sampleLibp2p with
    parseMultiaddr := fun text =>
      if text = foundAddress then some [.ip4 false false, .tcp, .p2p remotePeer] else none }

def roomRecord : CompactInviteV1 := ⟨1, .room, remotePeer, [foundAddress], none, some "den", none⟩

/-- The code of a room is dialed, and a member of it is found. -/
theorem records_answered_den : ∃ (pre : List (DaemonTransition silentCodec lookupLibp2p))
    (x : DaemonTransition silentCodec lookupLibp2p),
    Trace (daemonStep .release lookupLibp2p) (Daemon.start (sampleStatus emptyBook)) (pre ++ [x])
      x.after ∧ x.input = .foundRecord 1 roomRecord true ∧
      ∃ lookup, (x.after, x.output) =
        (x.before.setLookup 1 lookup).dialFoundPeer lookupLibp2p roomRecord true := by
  have hrun (start : Daemon silentCodec) (e e' : Event silentCodec lookupLibp2p) :
      ∃ y x, Trace (daemonStep .release lookupLibp2p) start ([y] ++ [x]) x.after ∧
        y.before = start ∧ y.input = e ∧ x.input = e' :=
    ⟨⟨start, e, _, _⟩, ⟨_, e', _, _⟩, .cons rfl (.cons rfl (.nil _)), rfl, rfl, rfl⟩
  obtain ⟨y, x, htrace, hbefore, hdial, hfound⟩ :=
    hrun (.start (sampleStatus emptyBook)) (.dial " den " 1 true) (.foundRecord 1 roomRecord true)
  have hbegun : begunLookup lookupLibp2p (sampleStatus emptyBook).network " den " =
      some (.room "den" []) := by
    decide +kernel
  have hasks : Asks 1 roomRecord.peerId y := by
    refine ⟨" den ", true, .room "den" [], hdial, ?_, List.not_mem_nil⟩
    rw [hbefore]
    exact hbegun
  refine ⟨[y], x, htrace, hfound,
    (records_answered htrace [y] x [] rfl 1 roomRecord true hfound).1 ?_⟩
  exact ⟨List.cons_ne_nil _ _, [], y, [], rfl, hasks, fun _ hmem => absurd hmem List.not_mem_nil⟩

end Voicers
