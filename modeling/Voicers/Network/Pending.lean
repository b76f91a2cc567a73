import Voicers.Network.Ledger
import Voicers.Network.Approval

/-! The joins that wait for the user. They stand twice in a daemon: as a list
in the status, which the user sees, and as a map of held hellos in the
network task, which approvals and rejections read. -/

namespace Voicers

open Lib

variable {κ : Codec} {lib : Libp2p}

def Ledger.listedIds (l : Ledger) : List String := l.listed.map PendingPeerApprovalSummary.peerId

/-- What is held is listed, and what is listed is held or is about to leave
the list with the rest of its approval. -/
structure Ledger.Settled (l : Ledger) : Prop where
  held : ∀ p, (l.held p).isSome = true → p ∈ l.listedIds
  listed : ∀ p ∈ l.listedIds, (l.held p).isSome = true ∨
    ∃ whitelist, .approved p whitelist ∈ l.followUps

/-- For a peer that is both listed and held, the list shows the name and the
room of the held hello. -/
def Ledger.Shown (l : Ledger) : Prop :=
  ∀ pending ∈ l.listed, ∀ inbound, l.held pending.peerId = some inbound →
    pending.displayName = inbound.hello.displayName ∧ pending.roomName = inbound.hello.roomName

/-- The user sees exactly the joins the network task holds. -/
def Daemon.PendingAgree (d : Daemon κ) : Prop :=
  ∀ p, p ∈ d.status.pendingPeerApprovals.map PendingPeerApprovalSummary.peerId ↔
    (d.pendingInboundApprovals p).isSome = true

def Daemon.PendingShown (d : Daemon κ) : Prop :=
  ∀ pending ∈ d.status.pendingPeerApprovals, ∀ inbound,
    d.pendingInboundApprovals pending.peerId = some inbound →
    pending.displayName = inbound.hello.displayName ∧ pending.roomName = inbound.hello.roomName

/-- The event takes no peer off the list while a hello of the peer is held:
neither an accepted hello that opens the flow nor the rest of an earlier
approval or rejection. -/
def Daemon.tidies (d : Daemon κ) : Event κ lib → Bool
  | .sessionHello peer _ _ => !d.passesGate peer.text || peer.text ∈ d.activeMediaFlows ||
      (d.pendingInboundApprovals peer.text).isNone
  | .followUp index => d.followUps[index]?.all fun followUp =>
      (d.pendingInboundApprovals followUp.peerId).isNone
  | _ => true

/-- A hello that is held names its sender and the room as the list does. -/
def Daemon.repeatsListed (d : Daemon κ) : Event κ lib → Bool
  | .sessionHello peer hello _ => d.passesGate peer.text ||
      d.status.pendingPeerApprovals.all fun pending => pending.peerId ≠ peer.text ||
        (pending.displayName = hello.displayName && pending.roomName = hello.roomName)
  | _ => true

namespace Ledger

variable {l : Ledger} {p q : String}

@[simp] theorem mem_listedIds_unlist : q ∈ (l.unlist p).listedIds ↔ q ∈ l.listedIds ∧ q ≠ p := by
  simp only [listedIds, unlist, List.mem_map, List.mem_filter, ne_eq, decide_not,
    Bool.not_eq_true', decide_eq_false_iff_not]
  constructor
  · rintro ⟨pending, ⟨hmem, hne⟩, rfl⟩
    exact ⟨⟨pending, hmem, rfl⟩, hne⟩
  · rintro ⟨⟨pending, hmem, rfl⟩, hne⟩
    exact ⟨pending, ⟨hmem, hne⟩, rfl⟩

theorem Settled.unlist (h : l.Settled) (hp : l.held p = none) : (l.unlist p).Settled where
  held q hq := by
    rw [mem_listedIds_unlist]
    refine ⟨h.held q hq, ?_⟩
    rintro rfl
    have hsome : (l.held q).isSome = true := hq
    simp [hp] at hsome
  listed q hq := h.listed q (mem_listedIds_unlist.mp hq).1

theorem Settled.release (h : l.Settled) (p : String) (whitelist : Bool) :
    Settled { l with
      held := Function.update l.held p none
      followUps := l.followUps ++ [.approved p whitelist] } where
  held q hq := by
    by_cases hqp : q = p
    · subst hqp
      simp at hq
    · exact h.held q (by simpa [hqp] using hq)
  listed q hq := by
    by_cases hqp : q = p
    · subst hqp
      exact .inr ⟨whitelist, by simp⟩
    · rcases h.listed q hq with hheld | ⟨w, hw⟩
      · exact .inl (by simpa [hqp] using hheld)
      · exact .inr ⟨w, List.mem_append_left _ hw⟩

theorem Settled.reject (h : l.Settled) (p : String) :
    Settled { l.unlist p with
      held := Function.update l.held p none
      followUps := l.followUps ++ [.rejected p] } where
  held q hq := by
    by_cases hqp : q = p
    · subst hqp
      simp at hq
    · exact mem_listedIds_unlist.mpr ⟨h.held q (by simpa [hqp] using hq), hqp⟩
  listed q hq := by
    obtain ⟨hq, hqp⟩ := mem_listedIds_unlist.mp hq
    rcases h.listed q hq with hheld | ⟨w, hw⟩
    · exact .inl (by simpa [hqp] using hheld)
    · exact .inr ⟨w, List.mem_append_left _ hw⟩

theorem Settled.finish (h : l.Settled) {index : Nat} {followUp : FollowUp}
    (hf : l.followUps[index]? = some followUp) (hp : l.held followUp.peerId = none) :
    Settled { l.unlist followUp.peerId with followUps := l.followUps.eraseIdx index } where
  held := (h.unlist hp).held
  listed q hq := by
    obtain ⟨hq, hne⟩ := mem_listedIds_unlist.mp hq
    rcases h.listed q hq with hheld | ⟨w, hw⟩
    · exact .inl hheld
    · -- the other entry stays in the queue, since it is of another peer
      obtain ⟨i, hi⟩ := List.mem_iff_getElem?.mp hw
      refine .inr ⟨w, List.mem_eraseIdx_iff_getElem?.mpr ⟨i, ?_, hi⟩⟩
      rintro rfl
      rw [hf] at hi
      obtain rfl := Option.some.inj hi
      exact hne rfl

end Ledger

/-- A hello is queued under its own name and room, or its sender was on the
list before. -/
theorem queuePendingPeerApproval_cases (state : DaemonStatus) (peerId : String)
    (hello : SessionHello) :
    (peerId ∈ state.pendingPeerApprovals.map PendingPeerApprovalSummary.peerId ∧
      (queuePendingPeerApproval state peerId hello).pendingPeerApprovals =
        state.pendingPeerApprovals) ∨
    ∃ pending : PendingPeerApprovalSummary,
      pending.peerId = peerId ∧ pending.displayName = hello.displayName ∧
      pending.roomName = hello.roomName ∧
      (queuePendingPeerApproval state peerId hello).pendingPeerApprovals =
        state.pendingPeerApprovals ++ [pending] := by
  simp only [queuePendingPeerApproval]
  by_cases hany : state.pendingPeerApprovals.any (fun pending => pending.peerId = peerId) = true
  · left
    rw [if_pos hany]
    obtain ⟨pending, hmem, hp⟩ := List.any_eq_true.mp hany
    exact ⟨List.mem_map.mpr ⟨pending, hmem, of_decide_eq_true hp⟩, rfl⟩
  · right
    rw [if_neg hany]
    exact ⟨_, rfl, rfl, rfl, rfl⟩

namespace Daemon

variable {d : Daemon κ} {e : Event κ lib}

theorem settled_queue (h : d.ledger.Settled) (p : String) (hello : SessionHello) (channel : Nat) :
    Ledger.Settled { d.ledger with
      listed := (queuePendingPeerApproval d.status p hello).pendingPeerApprovals
      held := Function.update d.pendingInboundApprovals p (some ⟨hello, channel⟩) } := by
  have hkeep : ∀ q, q ≠ p → ∀ inbound : Option PendingInboundApproval,
      (Function.update d.pendingInboundApprovals p inbound q).isSome = true ↔
        (d.ledger.held q).isSome = true := by
    intro q hq inbound
    simp [hq, ledger]
  rcases queuePendingPeerApproval_cases d.status p hello with ⟨hp, hl⟩ | ⟨pending, hp, _, _, hl⟩
  · refine ⟨fun q hq => ?_, fun q hq => ?_⟩
    · simp only [Ledger.listedIds, hl] at hq ⊢
      by_cases hqp : q = p
      · exact hqp ▸ hp
      · exact h.held q ((hkeep q hqp _).mp hq)
    · simp only [Ledger.listedIds, hl] at hq ⊢
      by_cases hqp : q = p
      · exact .inl (by simp [hqp])
      · exact (h.listed q hq).imp (hkeep q hqp _).mpr id
  · refine ⟨fun q hq => ?_, fun q hq => ?_⟩
    · simp only [Ledger.listedIds, hl, List.map_append, List.mem_append] at hq ⊢
      by_cases hqp : q = p
      · exact .inr (by simp [hp, hqp])
      · exact .inl (h.held q ((hkeep q hqp _).mp hq))
    · simp only [Ledger.listedIds, hl, List.map_append, List.mem_append] at hq ⊢
      by_cases hqp : q = p
      · exact .inl (by simp [hqp])
      · have hold : q ∈ d.ledger.listedIds := by
          rcases hq with hq | hq
          · exact hq
          · exact absurd (by simpa [hp] using hq) hqp
        exact (h.listed q hold).imp (hkeep q hqp _).mpr id

theorem settled_step (h : d.ledger.Settled) (ht : d.tidies e = true) :
    (d.ledgerAfter e).Settled := by
  cases e with
  | connectionClosed peer n =>
    simp only [ledgerAfter]
    split_ifs
    · exact ⟨h.held, h.listed⟩
    · exact h
  | sessionHello peer hello channel =>
    simp only [ledgerAfter]
    by_cases hgate : d.passesGate peer.text = true
    · rw [if_pos hgate]
      simp only [unlistOpened]
      split_ifs with hflow
      · exact ⟨h.held, h.listed⟩
      · have hnone : d.pendingInboundApprovals peer.text = none := by
          simpa [tidies, hgate, hflow] using ht
        exact ⟨(h.unlist hnone).held, (h.unlist hnone).listed⟩
    · rw [if_neg hgate]
      exact settled_queue h peer.text hello channel
  | sessionHelloAck peer hello =>
    simp only [ledgerAfter]
    split_ifs
    · exact h
    · exact ⟨h.held, h.listed⟩
  | approvePendingPeer peerId whitelist =>
    simp only [ledgerAfter, unlistOpened]
    have hrelease := h.release peerId whitelist
    split_ifs
    · exact hrelease
    · exact hrelease.unlist (by simp)
    · exact h
  | rejectPendingPeer peerId =>
    simp only [ledgerAfter]
    split_ifs
    · exact h.reject peerId
    · exact h
  | followUp index =>
    simp only [ledgerAfter]
    cases hf : d.followUps[index]? with
    | none => exact h
    | some followUp =>
      have hnone : d.pendingInboundApprovals followUp.peerId = none := by
        simpa [tidies, hf] using ht
      exact h.finish hf hnone
  | connectionEstablished peer endpoint => exact ⟨h.held, h.listed⟩
  | _ => exact h

/-- An event that is not tidy leaves a held join that the user does not see. -/
theorem untidy_hides (ht : d.tidies e = false) :
    ∃ p, ((d.ledgerAfter e).held p).isSome = true ∧ p ∉ (d.ledgerAfter e).listedIds := by
  cases e with
  | sessionHello peer hello channel =>
    simp only [tidies, Bool.or_eq_false_iff, Bool.not_eq_eq_eq_not, Bool.not_false,
      decide_eq_false_iff_not, Option.isNone_eq_false_iff] at ht
    obtain ⟨⟨hgate, hflow⟩, hheld⟩ := ht
    refine ⟨peer.text, ?_⟩
    simp only [ledgerAfter, hgate, if_true, unlistOpened, hflow, if_false,
      Ledger.mem_listedIds_unlist]
    exact ⟨hheld, fun h => h.2 rfl⟩
  | followUp index =>
    cases hf : d.followUps[index]? with
    | none => simp [tidies, hf] at ht
    | some followUp =>
      refine ⟨followUp.peerId, ?_⟩
      simp only [tidies, hf, Option.all_some, Option.isNone_eq_false_iff] at ht
      simp only [ledgerAfter, hf]
      exact ⟨ht, fun h => (Ledger.mem_listedIds_unlist.mp h).2 rfl⟩
  | _ => simp [tidies] at ht

theorem shown_queue (h : d.ledger.Shown) (p : String) (hello : SessionHello) (channel : Nat) :
    Ledger.Shown { d.ledger with
        listed := (queuePendingPeerApproval d.status p hello).pendingPeerApprovals
        held := Function.update d.pendingInboundApprovals p (some ⟨hello, channel⟩) } ↔
      ∀ pending ∈ d.status.pendingPeerApprovals, pending.peerId = p →
        pending.displayName = hello.displayName ∧ pending.roomName = hello.roomName := by
  have hsub : ∀ pending ∈ d.status.pendingPeerApprovals,
      pending ∈ (queuePendingPeerApproval d.status p hello).pendingPeerApprovals := by
    intro pending hmem
    rcases queuePendingPeerApproval_cases d.status p hello with ⟨_, hl⟩ | ⟨_, _, _, _, hl⟩
    · exact hl ▸ hmem
    · exact hl ▸ List.mem_append_left _ hmem
  constructor
  · intro hshown pending hmem hp
    exact hshown pending (hsub pending hmem) ⟨hello, channel⟩ (by simp [hp])
  · intro hrepeat pending hmem inbound hheld
    have hold : pending ∈ d.status.pendingPeerApprovals ∨
        (pending.displayName = hello.displayName ∧ pending.roomName = hello.roomName ∧
          pending.peerId = p) := by
      rcases queuePendingPeerApproval_cases d.status p hello with ⟨_, hl⟩ | ⟨new, hp, hd, hr, hl⟩
      · exact .inl (hl ▸ hmem)
      · simp only [hl, List.mem_append, List.mem_singleton] at hmem
        rcases hmem with hmem | rfl
        · exact .inl hmem
        · exact .inr ⟨hd, hr, hp⟩
    by_cases hp : pending.peerId = p
    · simp only [hp, Function.update_self, Option.some.injEq] at hheld
      subst hheld
      rcases hold with hmem | ⟨hd, hr, _⟩
      · exact hrepeat pending hmem hp
      · exact ⟨hd, hr⟩
    · simp only [ne_eq, hp, not_false_eq_true, Function.update_of_ne] at hheld
      rcases hold with hmem | ⟨_, _, hnew⟩
      · exact h pending hmem inbound hheld
      · exact absurd hnew hp

theorem shown_unlist {l : Ledger} (h : l.Shown) (p : String) : (l.unlist p).Shown :=
  fun pending hmem => h pending (List.mem_filter.mp hmem).1

theorem shown_release {l : Ledger} (h : l.Shown) (p : String) (followUps : List FollowUp) :
    Ledger.Shown { l with held := Function.update l.held p none, followUps := followUps } := by
  intro pending hmem inbound hheld
  by_cases hp : pending.peerId = p
  · simp [hp] at hheld
  · exact h pending hmem inbound (by simpa [hp] using hheld)

theorem shown_step_iff (h : d.ledger.Shown) :
    (d.ledgerAfter e).Shown ↔ d.repeatsListed e = true := by
  cases e with
  | connectionClosed peer n =>
    simp only [ledgerAfter, repeatsListed, iff_true]
    split_ifs
    · exact h
    · exact h
  | sessionHello peer hello channel =>
    simp only [ledgerAfter]
    by_cases hgate : d.passesGate peer.text = true
    · rw [if_pos hgate]
      simp only [unlistOpened, repeatsListed, hgate, Bool.true_or, iff_true]
      split_ifs
      · exact h
      · exact shown_unlist h peer.text
    · rw [if_neg hgate]
      apply (shown_queue h peer.text hello channel).trans
      simp [repeatsListed, hgate, ← imp_iff_not_or]
  | sessionHelloAck peer hello =>
    simp only [ledgerAfter, repeatsListed, iff_true]
    split_ifs
    · exact h
    · exact h
  | approvePendingPeer peerId whitelist =>
    have hrelease := shown_release h peerId (d.followUps ++ [.approved peerId whitelist])
    simp only [ledgerAfter, repeatsListed, iff_true, unlistOpened]
    split_ifs
    · exact hrelease
    · exact shown_unlist hrelease peerId
    · exact h
  | rejectPendingPeer peerId =>
    simp only [ledgerAfter, repeatsListed, iff_true]
    split_ifs
    · exact shown_release (shown_unlist h peerId) peerId _
    · exact h
  | followUp index =>
    simp only [ledgerAfter, repeatsListed, iff_true]
    cases hf : d.followUps[index]? with
    | none => exact h
    | some followUp => exact shown_unlist h followUp.peerId
  | _ => exact iff_of_true h rfl

theorem pendingAgree_of_settled (h : d.ledger.Settled) (hidle : d.followUps = []) :
    d.PendingAgree := by
  intro p
  refine ⟨fun hlisted => ?_, h.held p⟩
  rcases h.listed p hlisted with hheld | ⟨whitelist, hpending⟩
  · exact hheld
  · have hnone : .approved p whitelist ∈ d.followUps := hpending
    simp [hidle] at hnone

end Daemon

section

variable {π : Profile} {persisted : PersistedState} {displayName localPeerId : String}
  {events : List (Event κ lib)} {tr : List (DaemonTransition κ lib)} {d : Daemon κ}

theorem settled_start :
    (Daemon.start (bootstrap persisted displayName localPeerId) : Daemon κ).ledger.Settled where
  held p hp := by simp [Daemon.ledger, Daemon.start] at hp
  listed p hp := by simp [Daemon.ledger, Daemon.start, bootstrap, Ledger.listedIds] at hp

/-- The list and the map stay settled in a run exactly as long as its events
are tidy. -/
theorem settled_iff
    (h : daemonRun π lib (bootstrap persisted displayName localPeerId) events = some (tr, d)) :
    (∀ x ∈ tr, x.before.ledger.Settled ∧ x.after.ledger.Settled) ↔
      ∀ x ∈ tr, x.before.tidies x.input = true := by
  apply (daemonRun_trace h).invariant_iff (I := fun d => d.ledger.Settled)
  · intro x hstep hi
    rw [Daemon.ledger_step hstep]
    refine ⟨fun hsettled => ?_, Daemon.settled_step hi⟩
    by_contra huntidy
    obtain ⟨p, hheld, hlisted⟩ := Daemon.untidy_hides (eq_false_of_ne_true huntidy)
    exact hlisted (hsettled.held p hheld)
  · exact settled_start

/-- With no approval or rejection on the way, the list and the map name the
same peers, as long as nothing takes a held join off the list. -/
theorem pending_agreement
    (h : daemonRun π lib (bootstrap persisted displayName localPeerId) events = some (tr, d))
    (ht : ∀ x ∈ tr, x.before.tidies x.input = true) (hidle : d.followUps = []) :
    d.PendingAgree := by
  refine Daemon.pendingAgree_of_settled ?_ hidle
  refine (daemonRun_trace h).invariant_on (I := fun d => d.ledger.Settled) ?_ ht settled_start
  intro x htidy hi hstep
  rw [Daemon.ledger_step hstep]
  exact Daemon.settled_step hi htidy

/-- The list shows what the held hellos say, in every state of a run, exactly
when every hello that is held repeats the name and room already listed. -/
theorem pending_shown_iff
    (h : daemonRun π lib (bootstrap persisted displayName localPeerId) events = some (tr, d)) :
    (∀ x ∈ tr, x.before.PendingShown ∧ x.after.PendingShown) ↔
      ∀ x ∈ tr, x.before.repeatsListed x.input = true := by
  apply (daemonRun_trace h).invariant_iff (I := Daemon.PendingShown)
  · intro x hstep hi
    have hledger := Daemon.ledger_step hstep
    have hshown : x.after.PendingShown ↔ x.after.ledger.Shown := Iff.rfl
    rw [hshown, hledger]
    exact Daemon.shown_step_iff hi
  · intro pending hmem
    simp [Daemon.start, bootstrap] at hmem

end

/-- After the second hello of a peer with two connections nothing waits for the
user, but the first hello is still held. -/
theorem secondConnection_hidden :
    ∃ tr d, daemonRun .release sampleLibp2p (bootstrap emptyBook "local-user" localPeer)
        secondConnection = some (tr, d) ∧ d.followUps = [] ∧ ¬ d.PendingAgree := by
  have h : (daemonRun .release sampleLibp2p (bootstrap emptyBook "local-user" localPeer)
      secondConnection).map (fun r => (r.2.followUps, r.2.status.pendingPeerApprovals,
        (r.2.pendingInboundApprovals remotePeer).isSome)) = some ([], [], true) := by
    decide +kernel
  obtain ⟨⟨tr, d⟩, hrun, hd⟩ := Option.map_eq_some_iff.mp h
  obtain ⟨hidle, hd⟩ := Prod.mk.inj hd
  obtain ⟨hlisted, hheld⟩ := Prod.mk.inj hd
  refine ⟨tr, d, hrun, hidle, fun hagree => ?_⟩
  have hmem := (hagree remotePeer).mpr hheld
  simp only [] at hlisted
  simp [hlisted] at hmem

/-- A stranger says hello and the user declines. -/
def declinedCall : List (Event silentCodec sampleLibp2p) :=
  firstCall ++ [.rejectPendingPeer remotePeer, .followUp 0]

theorem pending_agreement_declinedCall :
    ∃ tr d, daemonRun .release sampleLibp2p (bootstrap emptyBook "local-user" localPeer)
        declinedCall = some (tr, d) ∧ d.PendingAgree := by
  have h : (daemonRun .release sampleLibp2p (bootstrap emptyBook "local-user" localPeer)
      declinedCall).map (fun r => (r.1.all (fun x => x.before.tidies x.input), r.2.followUps)) =
      some (true, []) := by decide +kernel
  obtain ⟨⟨tr, d⟩, hrun, hd⟩ := Option.map_eq_some_iff.mp h
  obtain ⟨htidy, hidle⟩ := Prod.mk.inj hd
  exact ⟨tr, d, hrun, pending_agreement hrun (fun x hx => List.all_eq_true.mp htidy x hx) hidle⟩

/-- A stranger says hello twice, the second time under another name. -/
def renamedStranger : List (Event silentCodec sampleLibp2p) :=
  firstCall ++ [.sessionHello remote { sampleHello with displayName := "a friend" } 1]

theorem renamedStranger_not_shown :
    ∃ tr d, daemonRun .release sampleLibp2p (bootstrap emptyBook "local-user" localPeer)
        renamedStranger = some (tr, d) ∧ ¬ d.PendingShown := by
  have h : (daemonRun .release sampleLibp2p (bootstrap emptyBook "local-user" localPeer)
      renamedStranger).map (fun r =>
        (r.2.status.pendingPeerApprovals.map fun pending =>
          (pending.peerId, pending.displayName),
        (r.2.pendingInboundApprovals remotePeer).map fun inbound => inbound.hello.displayName)) =
      some ([(remotePeer, "remote")], some "a friend") := by decide +kernel
  obtain ⟨⟨tr, d⟩, hrun, hd⟩ := Option.map_eq_some_iff.mp h
  obtain ⟨hlisted, hheld⟩ := Prod.mk.inj hd
  refine ⟨tr, d, hrun, fun hshown => ?_⟩
  obtain ⟨inbound, hheld, hname⟩ := Option.map_eq_some_iff.mp hheld
  obtain ⟨pending, hmem, hpending⟩ := List.mem_map.mp
    (hlisted ▸ List.mem_singleton_self (remotePeer, "remote"))
  obtain ⟨hid, hshow⟩ := Prod.mk.inj hpending
  have hsame := (hshown pending hmem inbound (hid ▸ hheld)).1
  rw [hshow, hname] at hsame
  exact absurd hsame (by decide)

theorem pending_shown_iff_renamedStranger :
    ∃ tr d, daemonRun .release sampleLibp2p (bootstrap emptyBook "local-user" localPeer)
        renamedStranger = some (tr, d) ∧
      ((∀ x ∈ tr, x.before.PendingShown ∧ x.after.PendingShown) ↔
        ∀ x ∈ tr, x.before.repeatsListed x.input = true) := by
  obtain ⟨⟨tr, d⟩, hrun⟩ := Option.isSome_iff_exists.mp
    (show (daemonRun .release sampleLibp2p (bootstrap emptyBook "local-user" localPeer)
      renamedStranger).isSome by decide +kernel)
  exact ⟨tr, d, hrun, pending_shown_iff hrun⟩

end Voicers
