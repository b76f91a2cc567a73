import Voicers.Lib.Lookup
import Voicers.Media.Capture
import Voicers.Media.OutputQueue

/-! The output on one device, into which all peers are mixed (`coreaudio_cpal`
in `audio_backend.rs`). The map of the peers has no order of its own: a
callback goes over its keys in any. -/

namespace Voicers

open Lib

/-- `PeerQueue`, which here belongs to a peer of the mix. -/
structure MixedPeer (Sample : Type) where
  outputBus : String
  displayName : String
  samples : List Sample
  primed : Bool

inductive BackendCommand (Sample : Type)
  | registerPeerOutput (peerId outputBus displayName : String)
  | removePeerOutput (peerId : String)
  | pushPeerPcm (peerId : String) (pcm : List Sample)
deriving DecidableEq

abbrev MixedPeers (Sample : Type) := Finmap fun _ : String => MixedPeer Sample

/-- The loop that pops what is over the bound. -/
def popOverflow {Sample : Type} : List Sample → List Sample
  | [] => []
  | oldest :: rest =>
    if maxQueuedSamples < (oldest :: rest).length then popOverflow rest else oldest :: rest

section

variable {Sample : Type}

def MixedPeer.pushPcm (peer : MixedPeer Sample) (pcm : List Sample) : MixedPeer Sample :=
  { peer with samples := popOverflow (peer.samples ++ pcm) }

def MixedPeer.new (outputBus displayName : String) : MixedPeer Sample where
  outputBus := outputBus
  displayName := displayName
  samples := []
  primed := false

def MixedPeer.rename (peer : MixedPeer Sample) (outputBus displayName : String) : MixedPeer Sample :=
  { peer with outputBus := outputBus, displayName := displayName }

namespace MixedPeers

def handleCommand (peers : MixedPeers Sample) : BackendCommand Sample → MixedPeers Sample
  | .registerPeerOutput peerId outputBus displayName =>
    peers.insert peerId
      ((peers.lookup peerId).elim (.new outputBus displayName) (·.rename outputBus displayName))
  | .removePeerOutput peerId => peers.erase peerId
  | .pushPeerPcm peerId pcm =>
    peers.insert peerId (((peers.lookup peerId).getD (.new "default" "peer")).pushPcm pcm)

end MixedPeers

/-- Silence until there is a preroll; then samples until half of it is left. -/
def nextPeerSample (silence : Sample) (peer : MixedPeer Sample) : Sample × MixedPeer Sample :=
  if peer.primed = false ∧ peer.samples.length < minPrerollSamples then (silence, peer)
  else
    (peer.samples.head?.getD silence,
      { peer with
        samples := peer.samples.tail
        primed := ¬ peer.samples.tail.length < minPrerollSamples / 2 })

/-- One sample of each peer, over the keys of the map. -/
def peerSamples (silence : Sample) :
    List String → MixedPeers Sample → List Sample × MixedPeers Sample
  | [], peers => ([], peers)
  | peerId :: order, peers =>
    match peers.lookup peerId with
    | none => peerSamples silence order peers
    | some peer =>
      let next := nextPeerSample silence peer
      let rest := peerSamples silence order (peers.insert peerId next.2)
      (next.1 :: rest.1, rest.2)

/-- The lengths of `chunks_mut(channels.max(1))`. -/
def chunkLengths (channels len : Nat) : List Nat :=
  List.replicate (len / max channels 1) (max channels 1) ++
    if len % max channels 1 = 0 then [] else [len % max channels 1]

end

section

variable (ρ : SampleArith) {Out : Type} (fromOutputSample : ρ.Sample → Out)

/-- The sum of some samples, clamped to `[-1, 1]`. -/
def mixSamples (samples : List ρ.Sample) : ρ.Sample :=
  let sum := samples.foldl ρ.add 0
  if ρ.lt sum (0 - 1) then 0 - 1 else if ρ.lt 1 sum then 1 else sum

/-- Every channel of a frame gets the sample the peers make up. -/
def fillFrames (order : List String) :
    List Nat → MixedPeers ρ.Sample → List Out × MixedPeers ρ.Sample
  | [], peers => ([], peers)
  | size :: sizes, peers =>
    let frame := peerSamples 0 order peers
    let rest := fillFrames order sizes frame.2
    (List.replicate size (fromOutputSample (mixSamples ρ frame.1)) ++ rest.1, rest.2)

/-- `order` is that in which the callback goes over the map. -/
inductive MixerEvent (Sample : Type)
  | command (command : BackendCommand Sample)
  | fillOutputBuffer (channels len : Nat) (order : List String)

namespace MixedPeers

def step (peers : MixedPeers ρ.Sample) :
    MixerEvent ρ.Sample → Option (List Out × MixedPeers ρ.Sample)
  | .command command => some ([], peers.handleCommand command)
  | .fillOutputBuffer channels len order =>
    if order.Nodup ∧ order.toFinset = peers.keys then
      some (fillFrames ρ fromOutputSample order (chunkLengths channels len) peers)
    else none

end MixedPeers

abbrev MixerTransition (Out : Type) :=
  Transition (MixedPeers ρ.Sample) (MixerEvent ρ.Sample) (List Out)

abbrev MixerRun (tr : List (MixerTransition ρ Out)) (peers : MixedPeers ρ.Sample) : Prop :=
  Trace (MixedPeers.step ρ fromOutputSample) ∅ tr peers

end

/-- What happens to the queue of one peer. -/
inductive PeerOutputEvent (Sample : Type)
  | register (outputBus displayName : String)
  | remove
  | push (pcm : List Sample)
  | pull

namespace PeerOutput

variable {Sample : Type} (silence : Sample)

/-- One peer on its own; without an entry it adds nothing to a frame. -/
def step (peer : Option (MixedPeer Sample)) :
    PeerOutputEvent Sample → Option (Sample × Option (MixedPeer Sample))
  | .register outputBus displayName =>
    some (silence, some (peer.elim (.new outputBus displayName) (·.rename outputBus displayName)))
  | .remove => some (silence, none)
  | .push pcm => some (silence, some ((peer.getD (.new "default" "peer")).pushPcm pcm))
  | .pull =>
    some (peer.elim silence fun peer => (nextPeerSample silence peer).1,
      peer.map fun peer => (nextPeerSample silence peer).2)

/-- The entry after some events. -/
def after (peer : Option (MixedPeer Sample)) (events : List (PeerOutputEvent Sample)) :
    Option (MixedPeer Sample) :=
  events.foldl (fun peer e => ((step silence peer e).map Prod.snd).getD peer) peer

/-- The sample a peer adds to the frame after some others. -/
def sampleAt (peer : MixedPeer Sample) (frame : Nat) : Sample :=
  (nextPeerSample silence ((fun q => (nextPeerSample silence q).2)^[frame] peer)).1

end PeerOutput

def BackendCommand.peerEvents {Sample : Type} (peerId : String) :
    BackendCommand Sample → List (PeerOutputEvent Sample)
  | .registerPeerOutput peerId' outputBus displayName =>
    if peerId' = peerId then [.register outputBus displayName] else []
  | .removePeerOutput peerId' => if peerId' = peerId then [.remove] else []
  | .pushPeerPcm peerId' pcm => if peerId' = peerId then [.push pcm] else []

/-- What an event of the mix is to one of the peers. -/
def MixerEvent.peerEvents {Sample : Type} (peerId : String) :
    MixerEvent Sample → List (PeerOutputEvent Sample)
  | .command c => c.peerEvents peerId
  | .fillOutputBuffer channels len _ => List.replicate (chunkLengths channels len).length .pull

/-- Frames of some lengths, to each of which every stream adds its sample. -/
def mixedBuffer (ρ : SampleArith) {Out : Type} (fromOutputSample : ρ.Sample → Out)
    (sizes : List Nat) (streams : List (Nat → ρ.Sample)) : List Out :=
  sizes.zipIdx.flatMap fun frame =>
    List.replicate frame.1 (fromOutputSample (mixSamples ρ (streams.map (· frame.2))))

section

variable {Sample : Type} (silence : Sample) {peerId : String}

theorem peerSamples_eq {order : List String} (horder : order.Nodup) (peers : MixedPeers Sample) :
    (peerSamples silence order peers).1 =
      (order.filterMap peers.lookup).map (fun peer => (nextPeerSample silence peer).1) ∧
    ∀ other, (peerSamples silence order peers).2.lookup other =
      if other ∈ order then (peers.lookup other).map fun peer => (nextPeerSample silence peer).2
      else peers.lookup other := by
  induction order generalizing peers with
  | nil => exact ⟨rfl, fun other => rfl⟩
  | cons peerId order ih =>
    obtain ⟨hhead, hrest⟩ := List.nodup_cons.mp horder
    cases hpeer : peers.lookup peerId with
    | none =>
      obtain ⟨hsamples, hlookup⟩ := ih hrest peers
      simp only [peerSamples, hpeer, List.filterMap_cons]
      refine ⟨hsamples, fun other => ?_⟩
      rw [hlookup other]
      by_cases hother : other = peerId
      · subst hother
        simp [hpeer]
      · simp [hother]
    | some peer =>
      obtain ⟨hsamples, hlookup⟩ :=
        ih hrest (peers.insert peerId (nextPeerSample silence peer).2)
      simp only [peerSamples, hpeer, List.filterMap_cons, List.map_cons]
      constructor
      · rw [hsamples]
        refine congrArg _ (congrArg _ (List.filterMap_congr fun other hother => ?_))
        exact Finmap.lookup_insert_of_ne _ fun h => hhead (h ▸ hother)
      · intro other
        rw [hlookup other, lookup_insert_eq]
        by_cases hother : other = peerId
        · subst hother
          simp [hhead, hpeer]
        · simp [hother]

theorem handleCommand_lookup (command : BackendCommand Sample) (peers : MixedPeers Sample)
    (peerId : String) :
    (peers.handleCommand command).lookup peerId =
      PeerOutput.after silence (peers.lookup peerId) (command.peerEvents peerId) := by
  cases command with
  | registerPeerOutput peerId' outputBus displayName =>
    rw [MixedPeers.handleCommand, BackendCommand.peerEvents, lookup_insert_eq]
    by_cases heq : peerId' = peerId
    · subst heq
      rw [if_pos rfl, if_pos rfl]
      rfl
    · rw [if_neg (Ne.symm heq), if_neg heq]
      rfl
  | removePeerOutput peerId' =>
    rw [MixedPeers.handleCommand, BackendCommand.peerEvents, lookup_erase_eq]
    by_cases heq : peerId' = peerId
    · rw [if_pos heq.symm, if_pos heq]
      rfl
    · rw [if_neg (Ne.symm heq), if_neg heq]
      rfl
  | pushPeerPcm peerId' pcm =>
    rw [MixedPeers.handleCommand, BackendCommand.peerEvents, lookup_insert_eq]
    by_cases heq : peerId' = peerId
    · subst heq
      rw [if_pos rfl, if_pos rfl]
      rfl
    · rw [if_neg (Ne.symm heq), if_neg heq]
      rfl

theorem after_pulls (peer : Option (MixedPeer Sample)) (n : Nat) :
    PeerOutput.after silence peer (List.replicate n .pull) =
      peer.map (fun q => (nextPeerSample silence q).2)^[n] := by
  induction n generalizing peer with
  | zero => cases peer <;> rfl
  | succ n ih =>
    rw [List.replicate_succ, PeerOutput.after, List.foldl_cons, ← PeerOutput.after, ih]
    cases peer <;> rfl

theorem after_append (peer : Option (MixedPeer Sample)) (a b : List (PeerOutputEvent Sample)) :
    PeerOutput.after silence peer (a ++ b) =
      PeerOutput.after silence (PeerOutput.after silence peer a) b :=
  List.foldl_append

end

section

variable {ρ : SampleArith} {Out : Type} {fromOutputSample : ρ.Sample → Out}
  {peers : MixedPeers ρ.Sample}

theorem mixedBuffer_cons (size : Nat) (sizes : List Nat) (streams : List (Nat → ρ.Sample)) :
    mixedBuffer ρ fromOutputSample (size :: sizes) streams =
      List.replicate size (fromOutputSample (mixSamples ρ (streams.map (· 0)))) ++
        mixedBuffer ρ fromOutputSample sizes (streams.map fun stream frame => stream (frame + 1)) := by
  unfold mixedBuffer
  rw [List.zipIdx_cons, List.flatMap_cons, Nat.zero_add, List.zipIdx_succ, List.flatMap_map]
  simp only [List.map_map, Function.comp_def]

theorem fillFrames_eq {order : List String} (horder : order.Nodup) (sizes : List Nat)
    (fromOutputSample : ρ.Sample → Out) (peers : MixedPeers ρ.Sample) :
    (fillFrames ρ fromOutputSample order sizes peers).1 =
      mixedBuffer ρ fromOutputSample sizes ((order.filterMap peers.lookup).map (PeerOutput.sampleAt 0)) ∧
    ∀ peerId, (peerId ∈ order ∨ peers.lookup peerId = none) →
      (fillFrames ρ fromOutputSample order sizes peers).2.lookup peerId =
        PeerOutput.after 0 (peers.lookup peerId) (List.replicate sizes.length .pull) := by
  induction sizes generalizing peers with
  | nil => exact ⟨rfl, fun _ _ => rfl⟩
  | cons size sizes ih =>
    obtain ⟨hsamples, hlookup⟩ := peerSamples_eq (0 : ρ.Sample) horder peers
    obtain ⟨hbuffer, hafter⟩ := ih (peerSamples 0 order peers).2
    have hnext : ∀ peerId, (peerId ∈ order ∨ peers.lookup peerId = none) →
        (peerSamples 0 order peers).2.lookup peerId =
          (peers.lookup peerId).map fun peer => (nextPeerSample 0 peer).2 := by
      intro peerId hpeer
      rw [hlookup]
      split_ifs with hmem
      · rfl
      · rw [hpeer.resolve_left hmem]
        rfl
    constructor
    · rw [fillFrames, hbuffer, hsamples, mixedBuffer_cons,
        List.filterMap_congr fun peerId hpeer => hnext peerId (.inl hpeer)]
      simp only [List.map_filterMap, Function.comp_def, Option.map_map]
      rfl
    · intro peerId hpeer
      have hafter' : peerId ∈ order ∨ (peerSamples 0 order peers).2.lookup peerId = none :=
        hpeer.imp_right fun hnone => by rw [hnext peerId hpeer, hnone]; rfl
      rw [fillFrames, hafter peerId hafter', hnext peerId hpeer, List.length_cons,
        List.replicate_succ]
      cases peers.lookup peerId <;> rfl

theorem chunkLengths_sum (channels len : Nat) : (chunkLengths channels len).sum = len := by
  have hdiv := Nat.div_add_mod' len (max channels 1)
  have hwhole : (List.replicate (len / max channels 1) (max channels 1)).sum =
      len / max channels 1 * max channels 1 := List.sum_replicate_nat
  rw [chunkLengths, List.sum_append, hwhole]
  split_ifs with hrest
  · rw [List.sum_nil, ← hrest]
    exact hdiv
  · rw [List.sum_singleton]
    exact hdiv

theorem length_mixedBuffer (sizes : List Nat) (streams : List (Nat → ρ.Sample)) :
    (mixedBuffer ρ fromOutputSample sizes streams).length = sizes.sum := by
  induction sizes generalizing streams with
  | nil => rfl
  | cons size sizes ih =>
    rw [mixedBuffer_cons, List.length_append, List.length_replicate, ih, List.sum_cons]

variable {peers' : MixedPeers ρ.Sample} {out : List Out}

theorem fill_step {channels len : Nat} {order : List String}
    (h : peers.step ρ fromOutputSample (.fillOutputBuffer channels len order) = some (out, peers')) :
    order.Nodup ∧ order.toFinset = peers.keys ∧
      (out, peers') = fillFrames ρ fromOutputSample order (chunkLengths channels len) peers := by
  simp only [MixedPeers.step] at h
  split_ifs at h with horder
  exact ⟨horder.1, horder.2, (Option.some.inj h).symm⟩

/-- A step of the mix is, for each peer, a few steps of that peer. -/
theorem mixer_lookup {i : MixerEvent ρ.Sample} (h : peers.step ρ fromOutputSample i = some (out, peers'))
    (peerId : String) :
    peers'.lookup peerId = PeerOutput.after 0 (peers.lookup peerId) (i.peerEvents peerId) := by
  cases i with
  | command command =>
    simp only [MixedPeers.step, Option.some.injEq, Prod.mk.injEq] at h
    rw [← h.2]
    exact handleCommand_lookup 0 command peers peerId
  | fillOutputBuffer channels len order =>
    obtain ⟨hnodup, hkeys, heq⟩ := fill_step h
    obtain ⟨_, hafter⟩ := fillFrames_eq hnodup (chunkLengths channels len) fromOutputSample peers
    rw [← heq] at hafter
    refine hafter peerId ?_
    by_cases hmem : peerId ∈ order
    · exact .inl hmem
    · rw [← List.mem_toFinset, hkeys, Finmap.mem_keys] at hmem
      exact .inr (Finmap.lookup_eq_none.mpr hmem)

theorem mixer_lookup_run {tr : List (MixerTransition ρ Out)}
    (h : Trace (MixedPeers.step ρ fromOutputSample) peers tr peers') (peerId : String) :
    peers'.lookup peerId =
      PeerOutput.after 0 (peers.lookup peerId) (tr.flatMap fun x => x.input.peerEvents peerId) := by
  induction h with
  | nil => rfl
  | cons hstep _ ih => rw [List.flatMap_cons, after_append, ← mixer_lookup hstep, ih]

/-- The peers are mixed frame by frame, and do not disturb each other: what a
peer adds depends on what happened to it and on the number of frames. -/
theorem mixer_mixes {tr : List (MixerTransition ρ Out)} (h : MixerRun ρ fromOutputSample tr peers) :
    (∀ peerId, peers.lookup peerId =
      PeerOutput.after 0 none (tr.flatMap fun x => x.input.peerEvents peerId)) ∧
    ∀ x ∈ tr, ∀ channels len order, x.input = .fillOutputBuffer channels len order →
      x.output.length = len ∧
        x.output = mixedBuffer ρ fromOutputSample (chunkLengths channels len)
          ((order.filterMap x.before.lookup).map (PeerOutput.sampleAt 0)) := by
  refine ⟨fun peerId => mixer_lookup_run h peerId, fun x hx channels len order hinput => ?_⟩
  obtain ⟨_, hstep⟩ := h.of_mem (I := fun _ => True) (fun _ _ _ _ _ _ => trivial) trivial hx
  rw [hinput] at hstep
  obtain ⟨hnodup, _, heq⟩ := fill_step hstep
  obtain ⟨hbuffer, _⟩ := fillFrames_eq hnodup (chunkLengths channels len) fromOutputSample x.before
  rw [← heq] at hbuffer
  dsimp only at hbuffer
  refine ⟨?_, hbuffer⟩
  rw [hbuffer, length_mixedBuffer, chunkLengths_sum]

end

/-- Two peers, one of whom is not heard yet, in three frames of two channels
that the device cuts short. -/
def mixedTwo : List (MixerEvent binary32.Sample) :=
  [.command (.registerPeerOutput "ann" "bus-ann" "Ann"), .command (.pushPeerPcm "bob" [1, 0]),
    .fillOutputBuffer 2 5 ["bob", "ann"]]

theorem mixer_mixes_two : ∃ (tr : List (MixerTransition binary32 binary32.Sample))
    (peers : MixedPeers binary32.Sample), MixerRun binary32 id tr peers ∧
      tr.map Transition.output = [[], [], [0, 0, 0, 0, 0]] ∧
      (∀ peerId, peers.lookup peerId =
        PeerOutput.after 0 none (tr.flatMap fun x => x.input.peerEvents peerId)) ∧
      ∀ x ∈ tr, ∀ channels len order, x.input = .fillOutputBuffer channels len order →
        x.output.length = len ∧
          x.output = mixedBuffer binary32 id (chunkLengths channels len)
            ((order.filterMap x.before.lookup).map (PeerOutput.sampleAt 0)) := by
  have hrun : (execute (MixedPeers.step binary32 id) ∅ mixedTwo).map
      (fun r => r.1.map Transition.output) = some [[], [], [0, 0, 0, 0, 0]] := by
    decide +kernel
  obtain ⟨r, hr, hout⟩ := Option.map_eq_some_iff.mp hrun
  exact ⟨r.1, r.2, execute_trace hr, hout, mixer_mixes (execute_trace hr)⟩

end Voicers
