import Voicers.Network.SelfMute

/-! The path of a frame in a build with the WebRTC transport. The states of all
connections are written to one text, that of the last update. -/

namespace Voicers

open Lib

variable {κ : Codec} {lib : Libp2p} {mic : Microphone κ}

def VoiceEvent.update? : VoiceEvent κ lib mic → Option (String × String)
  | .webRtcConnectionState peerId state => some (peerId, state)
  | _ => none

/-- The states of its connection that a peer has gone through. -/
def ownUpdates (peerId : String) (tr : List (VoiceTransition κ lib mic)) : List String :=
  tr.filterMap fun x => (x.input.update?.filter fun update => update.1 = peerId).map Prod.snd

/-- What the last update of the peer itself says about its connection. -/
def ownPreference (peerId : String) (tr : List (VoiceTransition κ lib mic)) : Bool :=
  (ownUpdates peerId tr).getLast?.any fun state => webRtcConnected (peerId ++ " " ++ state)

/-- A frame for the peer, whose data channel would take it, goes the way that
the last update of the peer tells. -/
def TakesOwnPath (peerId : String) (tr : List (VoiceTransition κ lib mic))
    (s : VoiceState κ mic) : Prop :=
  ∀ frame, s.carry true (.sendMedia peerId (.frame frame)) =
    if ownPreference peerId tr then .webRtcFrame peerId frame
    else .network (.sendMedia peerId (.frame frame))

/-- An update of another peer says the same as the last one of the peer. -/
def OthersAgree (peerId : String) (pre : List (VoiceTransition κ lib mic))
    (x : VoiceTransition κ lib mic) : Prop :=
  ∀ other state, x.input = .webRtcConnectionState other state → other ≠ peerId →
    webRtcConnected (other ++ " " ++ state) = ownPreference peerId pre

section

variable {π : Profile} {fuel : Nat} {peerId : String} {s t : VoiceState κ mic}
  {tr tr' : List (VoiceTransition κ lib mic)} {x : VoiceTransition κ lib mic}

theorem VoiceEvent.update?_eq_some {e : VoiceEvent κ lib mic} {other state : String}
    (h : e.update? = some (other, state)) : e = .webRtcConnectionState other state := by
  cases e with
  | webRtcConnectionState q text =>
    obtain ⟨rfl, rfl⟩ := Prod.mk.inj (Option.some.inj h)
    rfl
  | _ => cases h

theorem takesOwnPath_iff : TakesOwnPath peerId tr s ↔ s.prefersWebRtc = ownPreference peerId tr := by
  have hcarry : ∀ frame, s.carry true (.sendMedia peerId (.frame frame)) =
      if s.prefersWebRtc then .webRtcFrame peerId frame
      else .network (.sendMedia peerId (.frame frame)) := by
    intro frame
    simp only [VoiceState.carry, Bool.and_true]
  constructor
  · intro h
    have hpath := h ⟨0, 0, 0, .probe, sampleRateHz, frameChannels, frameDurationMs, []⟩
    rw [hcarry] at hpath
    cases hshared : s.prefersWebRtc with
    | false =>
      cases hown : ownPreference peerId tr with
      | false => rfl
      | true => simp [hshared, hown] at hpath
    | true =>
      cases hown : ownPreference peerId tr with
      | false => simp [hshared, hown] at hpath
      | true => rfl
  · intro h frame
    rw [hcarry, h]

/-- Only an update of a connection writes the text. -/
theorem prefersWebRtc_step {e : VoiceEvent κ lib mic} {o : List (VoiceEffect κ)}
    (hstep : voiceStep π lib fuel s e = some (o, t)) :
    t.prefersWebRtc = (e.update?.map fun update =>
      webRtcConnected (update.1 ++ " " ++ update.2)).getD s.prefersWebRtc := by
  cases e with
  | webRtcConnectionState other state =>
    simp only [voiceStep] at hstep
    split_ifs at hstep
    obtain ⟨_, rfl⟩ := Prod.mk.inj (Option.some.inj hstep)
    rfl
  | daemon event =>
    simp only [voiceStep] at hstep
    split_ifs at hstep
    obtain ⟨_, rfl⟩ := Prod.mk.inj (Option.some.inj hstep)
    rfl
  | captured chunk =>
    simp only [voiceStep] at hstep
    split_ifs at hstep
    split at hstep
    · obtain ⟨_, rfl⟩ := Prod.mk.inj (Option.some.inj hstep)
      rfl
    · obtain ⟨_, rfl⟩ := Prod.mk.inj (Option.some.inj hstep)
      rfl
    · cases hstep
  | toggleMuteSelf =>
    obtain ⟨_, rfl⟩ := Prod.mk.inj (Option.some.inj hstep)
    rfl
  | setInputGainPercent percent =>
    obtain ⟨_, rfl⟩ := Prod.mk.inj (Option.some.inj hstep)
    split_ifs
    · rfl
    · rfl
  | selectCaptureDevice opened =>
    obtain ⟨_, rfl⟩ := Prod.mk.inj (Option.some.inj hstep)
    split_ifs
    · rfl
    · rfl
  | sendMediaFrame peerId nowMs channelOpen =>
    obtain ⟨_, rfl⟩ := Prod.mk.inj (Option.some.inj hstep)
    rfl
  | webRtcMediaFrame peerId frame =>
    simp only [voiceStep] at hstep
    split_ifs at hstep
    obtain ⟨_, rfl⟩ := Prod.mk.inj (Option.some.inj hstep)
    rfl

theorem ownPreference_own {state : String} (h : x.input = .webRtcConnectionState peerId state) :
    ownPreference peerId (tr ++ [x]) = webRtcConnected (peerId ++ " " ++ state) := by
  simp [ownPreference, ownUpdates, VoiceEvent.update?, h]

theorem ownPreference_other
    (h : ∀ state, x.input ≠ .webRtcConnectionState peerId state) :
    ownPreference peerId (tr ++ [x]) = ownPreference peerId tr := by
  have hnone : (x.input.update?.filter fun update => update.1 = peerId) = none := by
    refine Option.filter_eq_none_iff.mpr fun update hupdate hid => ?_
    obtain ⟨other, state⟩ := update
    obtain rfl : other = peerId := by simpa using hid
    exact h state (VoiceEvent.update?_eq_some hupdate)
  simp [ownPreference, ownUpdates, hnone]

theorem takesOwnPath_step (hstep : voiceStep π lib fuel x.before x.input = some (x.output, x.after))
    (hown : TakesOwnPath peerId tr x.before) :
    TakesOwnPath peerId (tr ++ [x]) x.after ↔ OthersAgree peerId tr x := by
  rw [takesOwnPath_iff] at hown ⊢
  rw [prefersWebRtc_step hstep]
  cases hupdate : x.input.update? with
  | none =>
    have hquiet : ∀ other state, x.input ≠ .webRtcConnectionState other state := by
      intro other state hinput
      rw [hinput] at hupdate
      cases hupdate
    rw [ownPreference_other (hquiet peerId)]
    exact iff_of_true hown fun other state hinput => absurd hinput (hquiet other state)
  | some update =>
    obtain ⟨other, state⟩ := update
    have hinput := VoiceEvent.update?_eq_some hupdate
    simp only [Option.map_some, Option.getD_some]
    by_cases hsame : other = peerId
    · subst hsame
      rw [ownPreference_own hinput]
      refine iff_of_true rfl fun q text hq hne => ?_
      rw [hinput] at hq
      exact absurd (VoiceEvent.webRtcConnectionState.inj hq).1.symm hne
    · have hothers : ∀ text, x.input ≠ .webRtcConnectionState peerId text := by
        intro text htext
        rw [hinput] at htext
        exact hsame (VoiceEvent.webRtcConnectionState.inj htext).1
      rw [ownPreference_other hothers]
      constructor
      · intro hagrees q text hq _
        rw [hinput] at hq
        obtain ⟨rfl, rfl⟩ := VoiceEvent.webRtcConnectionState.inj hq
        exact hagrees
      · exact fun hagrees => hagrees other state hinput hsame

theorem takesOwnPath_start (status : DaemonStatus) (hasLiveCapture webRtc : Bool) :
    TakesOwnPath peerId ([] : List (VoiceTransition κ lib mic))
      (.start mic status hasLiveCapture webRtc) := by
  refine takesOwnPath_iff.mpr ?_
  have hidle : webRtcConnected "idle" = false := by decide +kernel
  have hnone : ownPreference peerId ([] : List (VoiceTransition κ lib mic)) = false := rfl
  cases webRtc with
  | false =>
    simp only [VoiceState.prefersWebRtc, VoiceState.start, Bool.false_eq_true, if_false,
      Option.any_none, hnone]
  | true => simp only [VoiceState.prefersWebRtc, VoiceState.start, if_true, Option.any_some, hidle, hnone]

variable {status : DaemonStatus} {hasLiveCapture webRtc : Bool}

theorem takesOwnPath_of_agree
    (hrun : Trace (voiceStep π lib fuel) (.start mic status hasLiveCapture webRtc) tr s)
    (hagree : Along (OthersAgree peerId) tr) : TakesOwnPath peerId tr s :=
  (hrun.along (R := fun _ _ => True) (takesOwnPath_start status hasLiveCapture webRtc)
    (fun _ _ hstep hothers hown => (takesOwnPath_step hstep hown).mpr hothers)
    (fun _ _ _ _ _ => trivial) hagree).1

/-- The frames for a peer go by its own last update all along a run exactly
when the others always say the same; two such runs in which its own last update
is the same treat it alike. -/
theorem webRtc_preference_iff {events : List (VoiceEvent κ lib mic)}
    (hrun : voiceRun π lib mic fuel status hasLiveCapture webRtc events = some (tr, s))
    (peerId : String) :
    (Along (fun pre x => TakesOwnPath peerId (pre ++ [x]) x.after) tr ↔
        Along (OthersAgree peerId) tr) ∧
      ∀ events' tr' t, voiceRun π lib mic fuel status hasLiveCapture webRtc events' = some (tr', t) →
        Along (OthersAgree peerId) tr → Along (OthersAgree peerId) tr' →
        (ownUpdates peerId tr).getLast? = (ownUpdates peerId tr').getLast? →
        s.prefersWebRtc = t.prefersWebRtc := by
  constructor
  · refine (execute_trace hrun).along_iff (J := fun _ _ => True) (I := TakesOwnPath peerId)
      trivial (takesOwnPath_start status hasLiveCapture webRtc) ?_ ?_
    · exact fun _ _ _ _ => trivial
    · exact fun _ _ hstep _ hown => takesOwnPath_step hstep hown
  · intro events' tr' t hrun' hagree hagree' hlast
    have hs := takesOwnPath_iff.mp (takesOwnPath_of_agree (execute_trace hrun) hagree)
    have ht := takesOwnPath_iff.mp (takesOwnPath_of_agree (execute_trace hrun') hagree')
    rw [hs, ht, ownPreference, ownPreference, hlast]

end

/-- The connection with one peer stands, that with another fails. -/
def otherFailed : List (VoiceEvent soundCodec sampleLibp2p soundMicrophone) :=
  [.webRtcConnectionState remotePeer "connected", .webRtcConnectionState relayPeer "failed"]

theorem otherFailed_paths :
    (voiceRun .release sampleLibp2p soundMicrophone 1 (sampleStatus emptyBook) true true
      otherFailed).map (fun r => (r.2.prefersWebRtc, ownPreference remotePeer r.1)) =
      some (false, true) := by
  decide +kernel

theorem otherFailed_switches_path :
    ¬ ∀ (events : List (VoiceEvent soundCodec sampleLibp2p soundMicrophone))
      (tr : List (VoiceTransition soundCodec sampleLibp2p soundMicrophone))
      (s : VoiceState soundCodec soundMicrophone),
      voiceRun .release sampleLibp2p soundMicrophone 1 (sampleStatus emptyBook) true true events =
        some (tr, s) → TakesOwnPath remotePeer tr s := by
  intro hall
  obtain ⟨⟨tr, s⟩, hrun, hpaths⟩ := Option.map_eq_some_iff.mp otherFailed_paths
  obtain ⟨hshared, hown⟩ := Prod.mk.inj hpaths
  have hsame := takesOwnPath_iff.mp (hall otherFailed tr s hrun)
  rw [hshared, hown] at hsame
  cases hsame

theorem webRtc_preference_iff_otherFailed :
    ∃ tr s, voiceRun .release sampleLibp2p soundMicrophone 1 (sampleStatus emptyBook) true true
        otherFailed = some (tr, s) ∧
      (Along (fun pre x => TakesOwnPath remotePeer (pre ++ [x]) x.after) tr ↔
        Along (OthersAgree remotePeer) tr) := by
  obtain ⟨⟨tr, s⟩, hrun, _⟩ := Option.map_eq_some_iff.mp otherFailed_paths
  exact ⟨tr, s, hrun, (webRtc_preference_iff hrun remotePeer).1⟩

end Voicers
