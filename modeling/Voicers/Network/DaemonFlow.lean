import Voicers.Network.DaemonMove

/-! The view of one peer: how its flow and its ticks move in a step, and when
its session becomes active. -/

namespace Voicers

open Lib

variable {κ : Codec} {lib : Libp2p}

namespace Daemon

/-- The flow of a peer in one step: it stays as it was, opens with a new tick,
closes with its tick still on the way, or spends a tick for the last time. -/
inductive FlowStep (d : Daemon κ) (e : Event κ lib) (d' : Daemon κ) (p : String) : Prop
  | same : (p ∈ d'.activeMediaFlows ↔ p ∈ d.activeMediaFlows) → d'.mediaTicks p = d.mediaTicks p →
      (d.Admits e p → p ∈ d.activeMediaFlows) →
      (∀ peer n, e = .connectionClosed peer n → peer.text ≠ p) → FlowStep d e d' p
  | opened : d.Admits e p → p ∉ d.activeMediaFlows → p ∈ d'.activeMediaFlows →
      d'.mediaTicks p = d.mediaTicks p + 1 → FlowStep d e d' p
  | closed : p ∉ d'.activeMediaFlows → d'.mediaTicks p = d.mediaTicks p → ¬ d.Admits e p →
      FlowStep d e d' p
  | spent : p ∉ d'.activeMediaFlows → d'.mediaTicks p + 1 = d.mediaTicks p → ¬ d.Admits e p →
      FlowStep d e d' p

section

variable {d d' : Daemon κ} {e : Event κ lib} {p : String}

theorem FlowStep.unmoved (hflows : SameFlows d d') (ha : ¬ d.Admits e p)
    (hc : ∀ peer n, e = .connectionClosed peer n → peer.text ≠ p) : FlowStep d e d' p :=
  .same (by rw [hflows.1]) (by rw [hflows.2]) (fun h => absurd h ha) hc

theorem openFlow_flowStep {q : String} (ha : d.Admits e q) (h : SameFlows (d.openFlow q) d') :
    FlowStep d e d' p := by
  obtain ⟨hflows, hticks⟩ := h
  have hother : d.Admits e p → p = q := by
    cases e with
    | sessionHello peer hello channel => exact fun h => h.1.symm.trans ha.1
    | sessionHelloAck peer hello => exact fun h => h.1.symm.trans ha.1
    | approvePendingPeer peerId whitelist => exact fun h => h.1.symm.trans ha.1
    | _ => exact absurd ha id
  have hopen : ∀ peer n, e = .connectionClosed peer n → peer.text ≠ p := by
    rintro peer n rfl
    exact absurd ha id
  unfold openFlow at hflows hticks
  by_cases hq : q ∈ d.activeMediaFlows
  · rw [if_pos hq] at hflows hticks
    exact .same (by rw [hflows]) (by rw [hticks]) (fun h => hother h ▸ hq) hopen
  · rw [if_neg hq] at hflows hticks
    by_cases hp : p = q
    · subst hp
      exact .opened ha hq (by simp [hflows, scheduleMediaTick])
        (by simp [hticks, scheduleMediaTick])
    · exact .same (by simp [hflows, scheduleMediaTick, hp])
        (by simp [hticks, scheduleMediaTick, hp]) (fun h => absurd (hother h) hp) hopen

theorem Move.flowStep (h : Move d e d') (p : String) : FlowStep d e d' p := by
  cases h with
  | quiet hn ha => exact .unmoved ha.flows (hn.1 p) fun peer n he => absurd he (hn.2 peer n)
  | identified hi hf _ _ =>
    cases e with
    | identifyReceived peer info => exact .unmoved hf id (by simp)
    | _ => exact absurd hi id
  | surfaced hs hf _ _ =>
    cases e with
    | connectionEstablished peer endpoint => exact .unmoved hf id (by simp)
    | _ => exact absurd hs id
  | admitted ha hf _ _ => exact openFlow_flowStep ha hf
  | @closed peer n he hf ht _ _ =>
    subst he
    by_cases hp : peer.text = p
    · exact .closed (by simp [hf, hp]) (by rw [ht]) id
    · have hp' : p ≠ peer.text := fun h => hp h.symm
      refine .same (by simp [hf, hp']) (by rw [ht]) (fun h => absurd h id) ?_
      intro peer' n' he
      cases he
      exact hp
  | engine hn hf _ _ => exact .unmoved hf (hn.1 p) fun peer n he => absurd he (hn.2 peer n)
  | delivered hd hf _ _ =>
    cases e with
    | mediaRequest peer request => exact .unmoved hf id (by simp)
    | _ => exact absurd hd id
  | ticked he _ hf _ _ _ =>
    subst he
    exact .unmoved hf id (by simp)
  | @spent q _ _ he hpos hf ht _ _ =>
    subst he
    by_cases hp : p = q
    · subst hp
      exact .spent (by simp [hf]) (by rw [ht, Function.update_self]; omega) id
    · exact .same (by simp [hf, hp]) (by simp [ht, hp]) (fun h => absurd h id) (by simp)

theorem Searches.not_mem {effects : List (Effect κ)} (h : Searches effects) {x : Effect κ}
    (hd : ∀ address, x ≠ .dial address) (hg : ∀ key, x ≠ .getRecord key) : x ∉ effects := by
  intro hx
  rcases h x hx with ⟨address, rfl⟩ | ⟨key, rfl⟩
  · exact hd address rfl
  · exact hg key rfl

theorem onMediaRequest_effects {π : Profile} {peerId : String} {request : MediaRequest}
    {x : Effect κ} (h : x ∈ (d.onMediaRequest π lib peerId request).2) :
    (∃ q r, x = .sendMedia q r) ∨ ∃ r, x = .respondMedia peerId r := by
  cases request with
  | frame frame =>
    simp only [onMediaRequest] at h
    split at h
    · exact .inr ⟨_, List.mem_singleton.mp h⟩
    · simp at h
  | relayedFrame destination frame =>
    simp only [onMediaRequest] at h
    split_ifs at h
    · simp only at h
      split at h
      · exact .inr ⟨_, List.mem_singleton.mp h⟩
      · simp at h
    · rcases List.mem_cons.mp h with h | h
      · exact .inl ⟨_, _, h⟩
      · exact .inr ⟨_, List.mem_singleton.mp h⟩
    · exact .inr ⟨_, List.mem_singleton.mp h⟩

theorem onSendMediaFrame_effects {π : Profile} {peerId : String} {pcm : κ.Pcm} {nowMs : UInt64}
    {x : Effect κ} (h : x ∈ (d.onSendMediaFrame π lib peerId pcm nowMs).2) :
    ∃ q r, x = .sendMedia q r := by
  simp only [onSendMediaFrame] at h
  split_ifs at h
  · simp at h
  · simp only [runMediaTick] at h
    split at h
    · simp only at h
      split at h
      · exact ⟨_, _, List.mem_singleton.mp h⟩
      · simp at h
    · split_ifs at h
      · simp at h
      · simp only at h
        split at h
        · exact ⟨_, _, List.mem_singleton.mp h⟩
        · simp at h
    · simp at h
  · simp at h

theorem sessionActive_mem_iff (π : Profile) (d : Daemon κ) (e : Event κ lib) (p : String) :
    .sessionActive p ∈ (d.handle π lib e).2 ↔ d.Admits e p := by
  cases e with
  | connectionEstablished peer endpoint =>
    simp only [handle, onConnectionEstablished, sendSessionHello, Admits, iff_false]
    split_ifs <;> simp
  | outgoingConnectionError peer dialed =>
    exact iff_of_false
      ((onOutgoingConnectionError_bookOnly d _ dialed).2.not_mem (by simp) (by simp)) id
  | foundRecord query invite dialed =>
    exact iff_of_false
      ((onFoundRecord_bookOnly d query invite dialed).2.not_mem (by simp) (by simp)) id
  | dial address query dialed =>
    exact iff_of_false
      ((dialPeer_bookOnly d address query dialed).2.not_mem (by simp) (by simp)) id
  | sessionHello peer hello channel =>
    simp only [handle, onSessionHello, Admits]
    split
    · next hgate =>
      simp only [applyApprovedSessionHello, List.mem_cons, Effect.sessionActive.injEq, reduceCtorEq,
        List.not_mem_nil, or_false]
      refine ⟨fun h => ⟨h.symm, ?_⟩, fun h => h.1.symm⟩
      rw [h]
      exact hgate
    · next hgate =>
      refine iff_of_false (by simp) fun h => ?_
      obtain ⟨rfl, h⟩ := h
      exact hgate h
  | sessionHelloAck peer hello =>
    simp only [handle, onSessionHelloAck, Admits]
    split
    · next hzero =>
      refine iff_of_false (by simp) fun h => ?_
      obtain ⟨rfl, h⟩ := h
      exact h hzero
    · next hsome =>
      simp only [List.mem_singleton, Effect.sessionActive.injEq]
      refine ⟨fun h => ⟨h.symm, ?_⟩, fun h => h.1.symm⟩
      rw [h]
      exact hsome
  | approvePendingPeer peerId whitelist =>
    simp only [handle, approvePendingPeer, Admits]
    split
    · next hnone =>
      refine iff_of_false (by simp) fun h => ?_
      obtain ⟨rfl, h⟩ := h
      simp [hnone] at h
    · next hsome =>
      simp only [applyApprovedSessionHello, List.mem_cons, Effect.sessionActive.injEq, reduceCtorEq,
        List.not_mem_nil, or_false]
      refine ⟨fun h => ⟨h.symm, ?_⟩, fun h => h.1.symm⟩
      rw [h, hsome]
      rfl
  | rejectPendingPeer peerId =>
    simp only [handle, rejectPendingPeer, Admits, iff_false]
    split <;> simp
  | mediaRequest peer request =>
    refine iff_of_false (fun h => ?_) id
    obtain ⟨_, _, h⟩ | ⟨_, h⟩ := onMediaRequest_effects h <;> cases h
  | sendMediaFrame peerId pcm nowMs =>
    refine iff_of_false (fun h => ?_) id
    obtain ⟨_, _, h⟩ := onSendMediaFrame_effects h
    cases h
  | playout now peerIds =>
    simp only [handle, onPlayout, Admits, iff_false]
    split
    · simp
    · split <;> simp
  | followUp index =>
    simp only [handle, Admits, iff_false]
    split <;> simp
  | _ => simp [handle, Admits]

end

end Daemon

end Voicers
