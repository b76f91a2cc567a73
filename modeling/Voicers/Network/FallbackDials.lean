import Voicers.Network.DialRanking
import Voicers.Network.LastDial
import Voicers.Network.PendingDials

/-! What a failed dial leads to. Each failure takes one fallback off the list
and dials it, so that an address that is none, or that the swarm refuses, ends
the attempts. -/

namespace Voicers

open Lib

variable {κ : Codec} {lib : Libp2p}

def FailsFor (peerId : String) (dialed : Bool) (x : HostTransition κ lib) : Prop :=
  ∃ peer, x.input = .event (.outgoingConnectionError (some peer) dialed) ∧ peer.text = peerId

/-- After a failure the next address that parses is being dialed, or there is
none. -/
def Progress (x : HostTransition κ lib) : Prop :=
  ∀ peerId dialed pending, FailsFor peerId dialed x →
    x.before.daemon.pendingDials peerId = some pending →
      (∃ skipped next rest, pending.fallbackAddresses = skipped ++ next :: rest ∧
        (∀ a ∈ skipped, lib.parseMultiaddr a = none) ∧ (lib.parseMultiaddr next).isSome = true ∧
        Effect.dial next ∈ x.output ∧ x.after.daemon.pendingDials peerId = some ⟨next, rest⟩) ∨
      ∃ left, x.after.daemon.pendingDials peerId = some left ∧
        ∀ a ∈ left.fallbackAddresses, lib.parseMultiaddr a = none

/-- The first fallback parses and is not refused, or no later one parses. -/
def FirstServes (x : HostTransition κ lib) : Prop :=
  ∀ peerId dialed current next rest, FailsFor peerId dialed x →
    x.before.daemon.pendingDials peerId = some ⟨current, next :: rest⟩ →
      (lib.parseMultiaddr next).isSome = true ∧ dialed = true ∨
        ∀ a ∈ rest, lib.parseMultiaddr a = none

/-- The fallback that a failure hands to the swarm. -/
def retried (peerId : String) (x : HostTransition κ lib) : Option String :=
  match x.input with
  | .event (.outgoingConnectionError (some peer) _) =>
    if peer.text = peerId then
      (x.before.daemon.pendingDials peerId).bind fun pending =>
        pending.fallbackAddresses.head?.filter fun a => (lib.parseMultiaddr a).isSome
    else none
  | _ => none

/-- A stretch of a run in which only failures touch the pending dial. -/
def OnlyFails (peerId : String) (tr : List (HostTransition κ lib)) : Prop :=
  ∀ x ∈ tr, (∃ dialed, FailsFor peerId dialed x) ∨
    x.after.daemon.pendingDials peerId = x.before.daemon.pendingDials peerId

/-- The fallbacks that parse have been tried in rank order, each once, and all
of them by the time a failure dials none. -/
structure TriesAll (peerId : String) (pending : PendingDial) (tr : List (HostTransition κ lib)) :
    Prop where
  ordered : tr.filterMap (retried peerId) <+:
    pending.fallbackAddresses.filter fun a => (lib.parseMultiaddr a).isSome
  distinct : (pending.currentAddress :: tr.filterMap (retried peerId)).Nodup
  complete : ∀ x dialed, tr.getLast? = some x → FailsFor peerId dialed x →
    (∀ a, Effect.dial a ∉ x.output) →
      tr.filterMap (retried peerId) =
        pending.fallbackAddresses.filter fun a => (lib.parseMultiaddr a).isSome

/-- No address of a pending dial is listed twice. -/
def DialsDistinct (d : Daemon κ) : Prop :=
  ∀ peerId pending, d.pendingDials peerId = some pending →
    (pending.currentAddress :: pending.fallbackAddresses).Nodup

section

variable {π : Profile} {h t : Host κ} {peerId : String} {dialed : Bool} {x : HostTransition κ lib}

theorem step_event {e : Event κ lib} {o : List (Effect κ)} (hstep : h.step π (.event e) = some (o, t)) :
    o = (h.daemon.handle π lib e).2 ∧ t.daemon = (h.daemon.handle π lib e).1 := by
  obtain ⟨established, _, heq⟩ := Option.map_eq_some_iff.mp hstep
  obtain ⟨rfl, rfl⟩ := Prod.mk.inj heq
  exact ⟨rfl, rfl⟩

theorem retried_of_failsFor (hfails : FailsFor peerId dialed x) {current : String}
    {fallbacks : List String}
    (hpending : x.before.daemon.pendingDials peerId = some ⟨current, fallbacks⟩) :
    retried peerId x = fallbacks.head?.filter fun a => (lib.parseMultiaddr a).isSome := by
  obtain ⟨peer, hinput, rfl⟩ := hfails
  simp only [retried, hinput, if_true, hpending, Option.bind_some]

/-- A failure without fallbacks changes nothing. -/
theorem failure_last (hstep : x.before.step π x.input = some (x.output, x.after))
    (hfails : FailsFor peerId dialed x) {current : String}
    (hpending : x.before.daemon.pendingDials peerId = some ⟨current, []⟩) :
    x.after.daemon.pendingDials peerId = some ⟨current, []⟩ := by
  obtain ⟨peer, hinput, rfl⟩ := hfails
  rw [hinput] at hstep
  obtain ⟨_, hafter⟩ := step_event hstep
  rw [hafter, Daemon.handle_dials]
  simp only [Daemon.dialsAfter, Option.map_some, hpending]

/-- A failure moves on to the first fallback, whatever comes of it. -/
theorem failure_next (hstep : x.before.step π x.input = some (x.output, x.after))
    (hfails : FailsFor peerId dialed x) {current next : String} {rest : List String}
    (hpending : x.before.daemon.pendingDials peerId = some ⟨current, next :: rest⟩) :
    x.after.daemon.pendingDials peerId = some ⟨next, rest⟩ ∧
      x.output = if (lib.parseMultiaddr next).isSome ∧ dialed then [.dial next] else [] := by
  obtain ⟨peer, hinput, rfl⟩ := hfails
  rw [hinput] at hstep
  obtain ⟨houtput, hafter⟩ := step_event hstep
  constructor
  · rw [hafter, Daemon.handle_dials]
    simp only [Daemon.dialsAfter, Option.map_some, hpending, Function.update_self]
  · rw [houtput]
    simp only [Daemon.handle, Daemon.onOutgoingConnectionError, Option.map_some, Option.bind_some,
      Daemon.withStatus, hpending]
    split_ifs
    · rfl
    · rfl

theorem progress_iff_firstServes (hstep : x.before.step π x.input = some (x.output, x.after)) :
    Progress x ↔ FirstServes x := by
  constructor
  · intro hprogress peerId dialed current next rest hfails hpending
    obtain ⟨hafter, houtput⟩ := failure_next hstep hfails hpending
    rcases hprogress peerId dialed _ hfails hpending with
      ⟨_, chosen, left, _, _, hparse, hdial, hchosen⟩ | ⟨left, hleft, hnone⟩
    · obtain ⟨rfl, rfl⟩ := PendingDial.mk.inj (Option.some.inj (hafter.symm.trans hchosen))
      rw [houtput] at hdial
      split_ifs at hdial with hserves
      · exact .inl hserves
      · cases hdial
    · obtain rfl := Option.some.inj (hafter.symm.trans hleft)
      exact .inr hnone
  · intro hserves peerId dialed pending hfails hpending
    obtain ⟨current, fallbacks⟩ := pending
    cases fallbacks with
    | nil => exact .inr ⟨_, failure_last hstep hfails hpending, fun a ha => absurd ha List.not_mem_nil⟩
    | cons next rest =>
      obtain ⟨hafter, houtput⟩ := failure_next hstep hfails hpending
      rcases hserves peerId dialed current next rest hfails hpending with hnext | hnone
      · refine .inl ⟨[], next, rest, rfl, by simp, hnext.1, ?_, hafter⟩
        rw [houtput, if_pos hnext]
        exact List.mem_singleton_self _
      · exact .inr ⟨_, hafter, hnone⟩

theorem retried_eq_none (hfails : ¬ ∃ dialed, FailsFor peerId dialed x) : retried peerId x = none := by
  unfold retried
  split
  · next peer dialed hinput =>
      exact if_neg fun htext => hfails ⟨dialed, peer, hinput, htext⟩
  · rfl

/-- The tried fallbacks and those that are left make up the list. -/
theorem tried_append_left {s : Host κ} {tr : List (HostTransition κ lib)} {pending : PendingDial}
    (hrun : Trace (Host.step π) s tr t) (hpending : s.daemon.pendingDials peerId = some pending)
    (honly : OnlyFails peerId tr) :
    ∃ left, t.daemon.pendingDials peerId = some left ∧
      tr.filterMap (retried peerId) ++
          left.fallbackAddresses.filter (fun a => (lib.parseMultiaddr a).isSome) =
        pending.fallbackAddresses.filter fun a => (lib.parseMultiaddr a).isSome := by
  induction hrun generalizing pending with
  | nil => exact ⟨pending, hpending, rfl⟩
  | @cons s m t input output tr hstep hrun ih =>
    have hrest : OnlyFails peerId tr := fun x hx => honly x (List.mem_cons_of_mem _ hx)
    by_cases hfails : ∃ dialed, FailsFor peerId dialed ⟨s, input, output, m⟩
    · obtain ⟨dialed, hfails⟩ := hfails
      obtain ⟨current, fallbacks⟩ := pending
      have hretried := retried_of_failsFor hfails hpending
      cases fallbacks with
      | nil =>
        have hafter := failure_last hstep hfails hpending
        obtain ⟨left, hleft, htried⟩ := ih hafter hrest
        refine ⟨left, hleft, ?_⟩
        rw [List.filterMap_cons_none hretried, htried]
      | cons next rest =>
        obtain ⟨hafter, _⟩ := failure_next hstep hfails hpending
        obtain ⟨left, hleft, htried⟩ := ih hafter hrest
        refine ⟨left, hleft, ?_⟩
        rw [List.filter_cons, ← htried]
        split_ifs with hparse
        · have hsome : retried peerId ⟨s, input, output, m⟩ = some next := by
            rw [hretried]
            simp [hparse]
          rw [List.filterMap_cons_some hsome, List.cons_append]
        · have hnone : retried peerId ⟨s, input, output, m⟩ = none := by
            rw [hretried]
            simpa using hparse
          rw [List.filterMap_cons_none hnone]
    · have hsame := (honly _ List.mem_cons_self).resolve_left hfails
      obtain ⟨left, hleft, htried⟩ := ih (hsame.trans hpending) hrest
      refine ⟨left, hleft, ?_⟩
      rw [List.filterMap_cons_none (retried_eq_none hfails), htried]

theorem dialsBegun_distinct {network : NetworkSummary} {address : String}
    {dials : String → Option PendingDial}
    (h : ∀ peerId pending, dials peerId = some pending →
      (pending.currentAddress :: pending.fallbackAddresses).Nodup) :
    ∀ peerId pending, dialsBegun lib network address dialed dials peerId = some pending →
      (pending.currentAddress :: pending.fallbackAddresses).Nodup := by
  intro peerId pending hpending
  unfold dialsBegun at hpending
  split_ifs at hpending
  · cases hranked : (resolveRankedDialTarget lib network address).peerId with
    | none =>
      rw [hranked] at hpending
      exact h peerId pending hpending
    | some ranked =>
      simp only [hranked, Function.update_apply] at hpending
      split_ifs at hpending
      · obtain rfl := Option.some.inj hpending
        exact nodup_resolveRankedDialTarget lib network address
      · exact h peerId pending hpending
  · exact h peerId pending hpending

theorem DialsDistinct.handle {d : Daemon κ} (h : DialsDistinct d) (e : Event κ lib) :
    DialsDistinct (d.handle π lib e).1 := by
  intro peerId pending hpending
  rw [Daemon.handle_dials] at hpending
  cases e with
  | connectionEstablished peer endpoint =>
    simp only [Daemon.dialsAfter, Function.update_apply] at hpending
    split_ifs at hpending
    exact h peerId pending hpending
  | outgoingConnectionError peer dialed =>
    simp only [Daemon.dialsAfter] at hpending
    cases peer with
    | none => exact h peerId pending hpending
    | some peer =>
      cases hbefore : d.pendingDials peer.text with
      | none =>
        simp only [Option.map_some, hbefore] at hpending
        exact h peerId pending hpending
      | some current =>
        obtain ⟨currentAddress, fallbackAddresses⟩ := current
        simp only [Option.map_some, hbefore] at hpending
        cases fallbackAddresses with
        | nil => exact h peerId pending hpending
        | cons next rest =>
          simp only [Function.update_apply] at hpending
          split_ifs at hpending
          · obtain rfl := Option.some.inj hpending
            exact (h peer.text _ hbefore).of_cons
          · exact h peerId pending hpending
  | foundRecord query invite dialed =>
    simp only [Daemon.dialsAfter] at hpending
    split_ifs at hpending
    · exact dialsBegun_distinct h peerId pending hpending
    · exact h peerId pending hpending
  | dial address query dialed => exact dialsBegun_distinct h peerId pending hpending
  | _ => exact h peerId pending hpending

theorem DialsDistinct.step {s : Host κ} {input : HostEvent κ lib} {output : List (Effect κ)}
    (h : DialsDistinct s.daemon) (hstep : s.step π input = some (output, t)) :
    DialsDistinct t.daemon := by
  cases input with
  | event e =>
    rw [(step_event hstep).2]
    exact h.handle e
  | pathOutcome path peerId success =>
    obtain ⟨_, rfl⟩ := Prod.mk.inj (Option.some.inj hstep)
    exact h
  | save localDisplayName =>
    obtain ⟨_, rfl⟩ := Prod.mk.inj (Option.some.inj hstep)
    exact h
  | restart index displayName localPeerId =>
    obtain ⟨file, _, heq⟩ := Option.map_eq_some_iff.mp hstep
    obtain ⟨_, rfl⟩ := Prod.mk.inj heq
    intro peerId pending hpending
    cases hpending

theorem TriesAll.of_run {s : Host κ} {tr : List (HostTransition κ lib)} {pending : PendingDial}
    (hdistinct : DialsDistinct s.daemon) (hrun : Trace (Host.step π) s tr t)
    (hserves : ∀ x ∈ tr, FirstServes x) (hpending : s.daemon.pendingDials peerId = some pending)
    (honly : OnlyFails peerId tr) : TriesAll peerId pending tr := by
  obtain ⟨left, hleft, htried⟩ := tried_append_left hrun hpending honly
  have hordered : tr.filterMap (retried peerId) <+:
      pending.fallbackAddresses.filter fun a => (lib.parseMultiaddr a).isSome := ⟨_, htried⟩
  refine ⟨hordered, ?_, ?_⟩
  · have hsublist := (hordered.sublist.trans List.filter_sublist).cons_cons pending.currentAddress
    exact hsublist.nodup (hdistinct peerId pending hpending)
  · intro x dialed hlast hfails hsilent
    obtain ⟨init, rfl⟩ := List.getLast?_eq_some_iff.mp hlast
    obtain ⟨hinit, hstep, hend⟩ := hrun.split
    cases hend
    obtain ⟨⟨current, fallbacks⟩, hbefore, _⟩ := tried_append_left hinit hpending fun y hy =>
      honly y (List.mem_append_left _ hy)
    have hnone : left.fallbackAddresses.filter (fun a => (lib.parseMultiaddr a).isSome) = [] := by
      cases fallbacks with
      | nil =>
        obtain rfl := Option.some.inj ((failure_last hstep hfails hbefore).symm.trans hleft)
        rfl
      | cons next rest =>
        obtain ⟨hafter, houtput⟩ := failure_next hstep hfails hbefore
        obtain rfl := Option.some.inj (hafter.symm.trans hleft)
        rcases hserves x (List.mem_append_right _ (List.mem_singleton_self x)) peerId dialed current
          next rest hfails hbefore with hnext | hrest
        · rw [if_pos hnext] at houtput
          exact absurd (houtput ▸ List.mem_singleton_self _) (hsilent next)
        · simpa [List.filter_eq_nil_iff] using hrest
    rw [hnone, List.append_nil] at htried
    exact htried

/-- Every failure makes progress exactly when each finds a first fallback that
serves, and then all that parse are tried. -/
theorem fallbacks_progress_iff {displayName localPeerId : String} {s : Host κ}
    {pre tr : List (HostTransition κ lib)} (hpre : HostRun π displayName localPeerId pre s)
    (hrun : Trace (Host.step π) s tr t) :
    ((∀ x ∈ tr, Progress x) ↔ ∀ x ∈ tr, FirstServes x) ∧
      ((∀ x ∈ tr, FirstServes x) → ∀ peerId pending,
        s.daemon.pendingDials peerId = some pending → OnlyFails peerId tr →
          TriesAll peerId pending tr) := by
  have hdistinct : DialsDistinct s.daemon := by
    refine hpre.invariant (I := fun s => DialsDistinct s.daemon)
      (fun _ _ _ _ h hstep => DialsDistinct.step h hstep) ?_
    intro peerId pending hpending
    cases hpending
  constructor
  · refine forall₂_congr fun x hx => ?_
    have hstep := (hrun.of_mem (I := fun _ => True) (fun _ _ _ _ _ _ => trivial) trivial hx).2
    exact progress_iff_firstServes hstep
  · intro hserves peerId pending hpending honly
    exact TriesAll.of_run hdistinct hrun hserves hpending honly

end

/-- A friend whose addresses are those of the list is dialed, and the dial fails. -/
def staleCall (addrs : List String) : List (HostEvent silentCodec dialLibp2p) :=
  [.event (.seedInviteHints
      { v := 1, kind := .directCall, peerId := remotePeer, addrs := addrs, inviteCode := none,
        roomName := none, expiresAtMs := none }),
    .event (.dial remotePeer 0 true),
    .event (.outgoingConnectionError (some dialedRemote) true)]

/-- The failure of such a call, with the pending dial before and after it. -/
theorem staleCall_fails {addrs : List String} {before after : Option PendingDial} {silent : Bool}
    (h : (hostRun .release "local-user" localPeer (staleCall addrs)).bind (fun r =>
      r.1.getLast?.map fun x => (x.before.daemon.pendingDials remotePeer,
        x.after.daemon.pendingDials remotePeer, x.output.isEmpty)) = some (before, after, silent)) :
    ∃ (pre : List (HostTransition silentCodec dialLibp2p)) (x : HostTransition silentCodec dialLibp2p),
      HostRun .release "local-user" localPeer (pre ++ [x]) x.after ∧
      x.input = .event (.outgoingConnectionError (some dialedRemote) true) ∧
      x.before.daemon.pendingDials remotePeer = before ∧
      x.after.daemon.pendingDials remotePeer = after ∧ x.output.isEmpty = silent := by
  obtain ⟨⟨tr, h⟩, hrun, hlast⟩ := Option.bind_eq_some_iff.mp h
  obtain ⟨x, hx, heq⟩ := Option.map_eq_some_iff.mp hlast
  obtain ⟨pre, rfl⟩ := List.getLast?_eq_some_iff.mp hx
  simp only [Prod.mk.injEq] at heq
  obtain ⟨hbefore, hafter, hsilent⟩ := heq
  have htrace := hostRun_trace hrun
  have hinputs := congrArg List.getLast? (execute_inputs hrun)
  rw [List.getLast?_map, hx] at hinputs
  obtain ⟨_, _, hend⟩ := htrace.split
  cases hend
  exact ⟨pre, x, htrace, Option.some.inj hinputs, hbefore, hafter, hsilent⟩

/-- A fallback that is no address is taken off the list, and the next is never
dialed. -/
theorem staleCall_stuck :
    ¬ ∀ (tr : List (HostTransition silentCodec dialLibp2p)) (h : Host silentCodec),
      HostRun .release "local-user" localPeer tr h → ∀ x ∈ tr, Progress x := by
  intro hall
  obtain ⟨pre, x, hrun, hinput, hbefore, hafter, hsilent⟩ :=
    @staleCall_fails [dialedAddress, "(unknown)", listenAddress]
      (some ⟨dialedAddress, ["(unknown)", listenAddress]⟩) (some ⟨"(unknown)", [listenAddress]⟩) true
      (by decide +kernel)
  rcases hall _ _ hrun x (List.mem_append_right _ (List.mem_singleton_self x)) remotePeer true _
    ⟨dialedRemote, hinput, rfl⟩ hbefore with ⟨_, _, _, _, _, _, hdial, _⟩ | ⟨left, hleft, hnone⟩
  · rw [List.isEmpty_iff.mp hsilent] at hdial
    cases hdial
  · obtain rfl := Option.some.inj (hafter.symm.trans hleft)
    exact absurd (hnone listenAddress (List.mem_singleton_self _)) (by decide)

theorem fallbacks_progress_iff_staleCall :
    ∃ (x : HostTransition silentCodec dialLibp2p) (pending : PendingDial),
      x.before.daemon.pendingDials remotePeer = some pending ∧
      pending.fallbackAddresses = [listenAddress] ∧
      ((∀ y ∈ [x], Progress y) ↔ ∀ y ∈ [x], FirstServes y) ∧ TriesAll remotePeer pending [x] := by
  obtain ⟨pre, x, hrun, hinput, hbefore, _, _⟩ :=
    @staleCall_fails [dialedAddress, listenAddress] (some ⟨dialedAddress, [listenAddress]⟩)
      (some ⟨listenAddress, []⟩) false (by decide +kernel)
  obtain ⟨hpre, hstep, _⟩ := hrun.split
  obtain ⟨hiff, htries⟩ := fallbacks_progress_iff hpre (.cons hstep (.nil x.after))
  refine ⟨x, _, hbefore, rfl, hiff, htries ?_ remotePeer _ hbefore ?_⟩
  · intro y hy
    obtain rfl := List.mem_singleton.mp hy
    rintro peerId dialed current next rest ⟨peer, hfails, rfl⟩ hpending
    rw [hinput] at hfails
    cases hfails
    obtain ⟨_, hfallbacks⟩ := PendingDial.mk.inj (Option.some.inj (hbefore.symm.trans hpending))
    obtain ⟨rfl, _⟩ := List.cons.inj hfallbacks
    exact .inl ⟨by decide, rfl⟩
  · intro y hy
    obtain rfl := List.mem_singleton.mp hy
    exact .inl ⟨true, dialedRemote, hinput, rfl⟩

end Voicers
