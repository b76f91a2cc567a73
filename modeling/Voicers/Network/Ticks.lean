import Voicers.Network.DaemonFlow
import Voicers.Media.Receive

/-! The chains of media ticks. Every flow is meant to be driven by one chain:
a tick sends a frame and schedules the next one. Closing a connection takes
the flow away but leaves its tick on the way, and the next hello starts a
second chain. -/

namespace Voicers

open Lib

variable {κ : Codec} {lib : Libp2p}

/-- One tick of `peerId` is outstanding if it has a flow, and at most one if
it has none. -/
def Daemon.SingleChain (d : Daemon κ) (peerId : String) : Prop :=
  (peerId ∈ d.activeMediaFlows → d.mediaTicks peerId = 1) ∧
    (peerId ∉ d.activeMediaFlows → d.mediaTicks peerId ≤ 1)

/-- The flow of a peer opens only when no tick of the peer is outstanding. -/
def Daemon.OpensRested (d : Daemon κ) (e : Event κ lib) : Prop :=
  ∀ peerId, d.Admits e peerId → peerId ∉ d.activeMediaFlows → d.mediaTicks peerId = 0

theorem singleChain_start (status : DaemonStatus) (peerId : String) :
    (Daemon.start status : Daemon κ).SingleChain peerId := by
  simp [Daemon.SingleChain, Daemon.start]

section

variable {d d' : Daemon κ} {e : Event κ lib} {p : String}

theorem Daemon.SingleChain.step (h : d.SingleChain p) (hs : Daemon.FlowStep d e d' p)
    (ho : d.OpensRested e) : d'.SingleChain p := by
  cases hs with
  | same hf ht _ _ =>
    unfold Daemon.SingleChain
    rw [hf, ht]
    exact h
  | opened ha hn hf ht =>
    have hzero := ho p ha hn
    exact ⟨fun _ => by omega, fun hnot => absurd hf hnot⟩
  | closed hf ht _ =>
    refine ⟨fun hin => absurd hin hf, fun _ => ?_⟩
    by_cases hin : p ∈ d.activeMediaFlows
    · have := h.1 hin
      omega
    · have := h.2 hin
      omega
  | spent hf ht _ =>
    refine ⟨fun hin => absurd hin hf, fun _ => ?_⟩
    by_cases hin : p ∈ d.activeMediaFlows
    · have := h.1 hin
      omega
    · have := h.2 hin
      omega

theorem Daemon.SingleChain.rested (h' : d'.SingleChain p) (hs : Daemon.FlowStep d e d' p)
    (ha : d.Admits e p) (hn : p ∉ d.activeMediaFlows) : d.mediaTicks p = 0 := by
  cases hs with
  | same _ _ hin _ => exact absurd (hin ha) hn
  | opened _ _ hf ht =>
    have := h'.1 hf
    omega
  | closed _ _ hno => exact absurd ha hno
  | spent _ _ hno => exact absurd ha hno

end

/-- In a run all flows are driven by single chains exactly when every hello,
acknowledgement or approval that opens a flow finds no tick of its peer
outstanding. -/
theorem single_chain_iff {π : Profile} {status : DaemonStatus} {events : List (Event κ lib)}
    {tr : List (DaemonTransition κ lib)} {d : Daemon κ}
    (h : daemonRun π lib status events = some (tr, d)) :
    (∀ x ∈ tr, ∀ peerId, x.before.SingleChain peerId ∧ x.after.SingleChain peerId) ↔
      ∀ x ∈ tr, x.before.OpensRested x.input := by
  have htr := daemonRun_trace h
  have hflow : ∀ x : DaemonTransition κ lib,
      daemonStep π lib x.before x.input = some (x.output, x.after) → ∀ p,
      Daemon.FlowStep x.before x.input x.after p := by
    intro x hstep p
    rw [(daemonStep_eq hstep).2]
    exact (x.before.handle_move π x.input).flowStep p
  constructor
  · intro hall x hx peerId ha hn
    obtain ⟨pre, post, rfl⟩ := List.append_of_mem hx
    obtain ⟨_, hstep, _⟩ := htr.split
    exact (hall x hx peerId).2.rested (hflow x hstep peerId) ha hn
  · intro hall
    have hkeep : ∀ x : DaemonTransition κ lib,
        daemonStep π lib x.before x.input = some (x.output, x.after) →
        x.before.OpensRested x.input → (∀ p, x.before.SingleChain p) →
        ∀ p, x.after.SingleChain p :=
      fun x hstep ho hi p => (hi p).step (hflow x hstep p) ho
    exact along_iff_mem.mp (htr.along (I := fun _ d => ∀ p, d.SingleChain p)
      (singleChain_start status) (fun _ x hstep ho hi => hkeep x hstep ho hi)
      (fun _ x hstep ho hi p => ⟨hi p, hkeep x hstep ho hi p⟩) (along_iff_mem.mpr hall)).2

/-- A peer with two connections says hello, loses one of them and says hello
again before its first tick has come. -/
def helloAcrossClose : List (Event silentCodec sampleLibp2p) :=
  [.connectionEstablished remote incoming, .connectionEstablished remote incoming,
    .sessionHello remote sampleHello 0, .connectionClosed remote 1,
    .sessionHello remote sampleHello 1]

theorem helloAcrossClose_two_chains :
    ∃ tr d, daemonRun .release sampleLibp2p (sampleStatus friendBook)
        helloAcrossClose = some (tr, d) ∧
      remotePeer ∈ d.activeMediaFlows ∧ d.mediaTicks remotePeer = 2 ∧
      ¬ d.SingleChain remotePeer := by
  have h : (daemonRun .release sampleLibp2p (sampleStatus friendBook)
      helloAcrossClose).map (fun r =>
        (decide (remotePeer ∈ r.2.activeMediaFlows), r.2.mediaTicks remotePeer)) =
      some (true, 2) := by decide +kernel
  obtain ⟨⟨tr, d⟩, hrun, hd⟩ := Option.map_eq_some_iff.mp h
  obtain ⟨hin, hticks⟩ := Prod.mk.inj hd
  have hflow : remotePeer ∈ d.activeMediaFlows := of_decide_eq_true hin
  refine ⟨tr, d, hrun, hflow, hticks, fun hchain => ?_⟩
  have hone := hchain.1 hflow
  simp only at hticks
  omega

theorem single_chain_iff_helloAcrossClose :
    ∃ tr d, daemonRun .release sampleLibp2p (sampleStatus friendBook)
        helloAcrossClose = some (tr, d) ∧
      ((∀ x ∈ tr, ∀ peerId, x.before.SingleChain peerId ∧ x.after.SingleChain peerId) ↔
        ∀ x ∈ tr, x.before.OpensRested x.input) := by
  have hruns : (daemonRun .release sampleLibp2p (sampleStatus friendBook)
      helloAcrossClose).isSome := by decide +kernel
  obtain ⟨⟨tr, d⟩, hrun⟩ := Option.isSome_iff_exists.mp hruns
  exact ⟨tr, d, hrun, single_chain_iff hrun⟩

end Voicers
