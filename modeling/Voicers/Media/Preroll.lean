import Voicers.Media.Mixer

/-! When a peer of the mix is heard. It waits for a preroll, plays until half of
one is left, and then waits for a preroll again. -/

namespace Voicers

open Lib

namespace PeerOutput

variable {Sample : Type}

/-- The samples that wait to be played. -/
def queued (peer : Option (MixedPeer Sample)) : List Sample := peer.elim [] MixedPeer.samples

/-- The sample an event takes off the queue, if it does. -/
def plays (peer : Option (MixedPeer Sample)) : PeerOutputEvent Sample → Option Sample
  | .pull =>
    match peer with
    | none => none
    | some q =>
      if q.primed = false ∧ q.samples.length < minPrerollSamples then none else q.samples.head?
  | _ => none

def playedSamples (silence : Sample) (peer : Option (MixedPeer Sample)) :
    List (PeerOutputEvent Sample) → List Sample
  | [] => []
  | e :: events => (plays peer e).toList ++ playedSamples silence (after silence peer [e]) events

def pushedPcm : PeerOutputEvent Sample → List Sample
  | .push pcm => pcm
  | _ => []

def isPull : PeerOutputEvent Sample → Bool
  | .pull => true
  | _ => false

def isRemove : PeerOutputEvent Sample → Bool
  | .remove => true
  | _ => false

end PeerOutput

/-- What a queue holds between two events. -/
structure MixedPeer.Sized {Sample : Type} (peer : MixedPeer Sample) : Prop where
  bounded : peer.samples.length ≤ maxQueuedSamples
  ready : peer.primed = true → minPrerollSamples / 2 ≤ peer.samples.length

section

variable {Sample : Type} (silence : Sample) {peer : MixedPeer Sample}

theorem popOverflow_eq (samples : List Sample) :
    popOverflow samples = samples.drop (samples.length - maxQueuedSamples) := by
  induction samples with
  | nil => exact List.drop_nil.symm
  | cons oldest rest ih =>
    rw [popOverflow]
    split_ifs with hlong
    · rw [List.length_cons] at hlong ⊢
      have hmore : rest.length + 1 - maxQueuedSamples = rest.length - maxQueuedSamples + 1 := by
        omega
      rw [ih, hmore, List.drop_succ_cons]
    · rw [Nat.sub_eq_zero_of_le (Nat.not_lt.mp hlong), List.drop_zero]

theorem length_pushPcm (peer : MixedPeer Sample) (pcm : List Sample) :
    (peer.pushPcm pcm).samples.length =
      min (peer.samples.length + pcm.length) maxQueuedSamples := by
  rw [MixedPeer.pushPcm, popOverflow_eq, List.length_drop, List.length_append]
  omega

theorem nextPeerSample_wait
    (hwait : peer.primed = false ∧ peer.samples.length < minPrerollSamples) :
    nextPeerSample silence peer = (silence, peer) := if_pos hwait

theorem nextPeerSample_play
    (hplay : ¬ (peer.primed = false ∧ peer.samples.length < minPrerollSamples)) :
    nextPeerSample silence peer = (peer.samples.head?.getD silence,
      { peer with
        samples := peer.samples.tail
        primed := ¬ peer.samples.tail.length < minPrerollSamples / 2 }) := if_neg hplay

theorem MixedPeer.Sized.pushPcm (h : peer.Sized) (pcm : List Sample) :
    (peer.pushPcm pcm).Sized := by
  constructor
  · rw [length_pushPcm]
    exact min_le_right _ _
  · intro hprimed
    have hready := h.ready hprimed
    have hhalf : minPrerollSamples / 2 ≤ maxQueuedSamples := by decide
    rw [length_pushPcm]
    omega

theorem MixedPeer.Sized.next (h : peer.Sized) : (nextPeerSample silence peer).2.Sized := by
  by_cases hwait : peer.primed = false ∧ peer.samples.length < minPrerollSamples
  · rw [nextPeerSample_wait _ hwait]
    exact h
  · rw [nextPeerSample_play _ hwait]
    constructor
    · rw [List.length_tail]
      exact (Nat.sub_le _ _).trans h.bounded
    · intro hprimed
      simpa using hprimed

/-- A queue that plays is never empty: the silence is that of a peer that waits. -/
theorem MixedPeer.Sized.plays_iff (h : peer.Sized) :
    (PeerOutput.plays (some peer) .pull).isSome ↔
      ¬ (peer.primed = false ∧ peer.samples.length < minPrerollSamples) := by
  unfold PeerOutput.plays
  dsimp only
  split_ifs with hwait
  · simp [hwait]
  · have hpos : peer.samples ≠ [] := by
      intro hnil
      have hlength : peer.samples.length = 0 := by rw [hnil, List.length_nil]
      have hhalf : 0 < minPrerollSamples / 2 := by decide
      cases hprimed : peer.primed with
      | true =>
        have hready := h.ready hprimed
        omega
      | false => exact hwait ⟨hprimed, hlength ▸ by decide⟩
    simp [hwait, List.isSome_head?, hpos]

namespace PeerOutput

theorem after_cons (peer : Option (MixedPeer Sample)) (e : PeerOutputEvent Sample)
    (events : List (PeerOutputEvent Sample)) :
    after silence peer (e :: events) = after silence (after silence peer [e]) events := rfl

/-- What an event takes off the queue it takes off the front. -/
theorem plays_queued_sublist (peer : Option (MixedPeer Sample)) (e : PeerOutputEvent Sample) :
    ((plays peer e).toList ++ queued (after silence peer [e])).Sublist
      (queued peer ++ pushedPcm e) := by
  have hsame : queued peer ++ [] = queued peer := List.append_nil _
  cases e with
  | register outputBus displayName =>
    cases peer with
    | none => exact List.nil_sublist _
    | some q =>
      have hnone : queued (some q) ++ pushedPcm (.register outputBus displayName) = q.samples :=
        hsame
      rw [hnone]
      exact List.Sublist.refl _
  | remove => exact List.nil_sublist _
  | push pcm =>
    have hdrop : (popOverflow (queued peer ++ pcm)).Sublist (queued peer ++ pcm) := by
      rw [popOverflow_eq]
      exact List.drop_sublist _ _
    cases peer with
    | none => exact hdrop
    | some q => exact hdrop
  | pull =>
    cases peer with
    | none => exact List.nil_sublist _
    | some q =>
      have hafter : queued (after silence (some q) [.pull]) = (nextPeerSample silence q).2.samples :=
        rfl
      have hnone : queued (some q) ++ pushedPcm .pull = q.samples := hsame
      rw [hafter, hnone, plays]
      by_cases hwait : q.primed = false ∧ q.samples.length < minPrerollSamples
      · rw [if_pos hwait, nextPeerSample_wait _ hwait]
        exact List.Sublist.refl _
      · rw [if_neg hwait, nextPeerSample_play _ hwait]
        cases q.samples with
        | nil => exact List.Sublist.refl _
        | cons sample rest => exact List.Sublist.refl _

theorem playedSamples_sublist (peer : Option (MixedPeer Sample))
    (events : List (PeerOutputEvent Sample)) :
    (playedSamples silence peer events ++ queued (after silence peer events)).Sublist
      (queued peer ++ events.flatMap pushedPcm) := by
  induction events generalizing peer with
  | nil => simp [playedSamples, after]
  | cons e events ih =>
    have hfirst := plays_queued_sublist silence peer e
    rw [after_cons, playedSamples, List.append_assoc, List.flatMap_cons,
      ← List.append_assoc (queued peer)]
    refine ((ih (after silence peer [e])).append_left _).trans ?_
    rw [← List.append_assoc]
    exact hfirst.append_right _

theorem sized_after {peer : Option (MixedPeer Sample)} (h : ∀ q ∈ peer, q.Sized)
    (e : PeerOutputEvent Sample) : ∀ q ∈ after silence peer [e], q.Sized := by
  have hnew (outputBus displayName : String) : (MixedPeer.new outputBus displayName :
      MixedPeer Sample).Sized := ⟨Nat.zero_le _, nofun⟩
  intro q hq
  cases e with
  | register outputBus displayName =>
    cases peer with
    | none => exact Option.some.inj hq ▸ hnew outputBus displayName
    | some q' =>
      have hsized := h q' rfl
      exact Option.some.inj hq ▸ ⟨hsized.bounded, hsized.ready⟩
  | remove => cases hq
  | push pcm =>
    cases peer with
    | none => exact Option.some.inj hq ▸ (hnew _ _).pushPcm pcm
    | some q' => exact Option.some.inj hq ▸ (h q' rfl).pushPcm pcm
  | pull =>
    cases peer with
    | none => cases hq
    | some q' => exact Option.some.inj hq ▸ (h q' rfl).next silence

theorem sized_run {peer : Option (MixedPeer Sample)} (h : ∀ q ∈ peer, q.Sized)
    (events : List (PeerOutputEvent Sample)) : ∀ q ∈ after silence peer events, q.Sized := by
  induction events generalizing peer with
  | nil => exact h
  | cons e events ih => exact ih (sized_after silence h e)

/-- With a preroll, the next pulls all play, whatever is pushed in between. -/
theorem playedSamples_burst {q : MixedPeer Sample} {events : List (PeerOutputEvent Sample)}
    (hkept : ∀ e ∈ events, isRemove e = false) (done : Nat)
    (hdone : done + events.countP isPull ≤ 4801) (hfew : q.samples.length ≤ maxQueuedSamples)
    (hmany : minPrerollSamples ≤ q.samples.length + done)
    (hplay : done < 4801 → q.primed = false → minPrerollSamples ≤ q.samples.length) :
    (playedSamples silence (some q) events).length = events.countP isPull := by
  induction events generalizing q done with
  | nil => rfl
  | cons e events ih =>
    have hrest : ∀ e ∈ events, isRemove e = false := fun e he => hkept e (List.mem_cons_of_mem _ he)
    rw [List.countP_cons] at hdone
    rw [playedSamples, List.length_append, List.countP_cons]
    have hlost : minPrerollSamples = 9600 ∧ maxQueuedSamples = 24000 := ⟨rfl, rfl⟩
    cases e with
    | register outputBus displayName =>
      have hlength := ih (q := q.rename outputBus displayName) hrest done hdone hfew hmany hplay
      exact (Nat.zero_add _).trans hlength
    | remove => exact absurd (hkept _ List.mem_cons_self) (by simp [isRemove])
    | push pcm =>
      have hlen := length_pushPcm q pcm
      have hlength := ih (q := q.pushPcm pcm) hrest done hdone (by omega) (by omega)
        fun hmore hprimed => by
        have hready := hplay hmore hprimed
        omega
      exact (Nat.zero_add _).trans hlength
    | pull =>
      have hone :
          (if isPull (PeerOutputEvent.pull : PeerOutputEvent Sample) = true then 1 else 0) = 1 := rfl
      rw [hone] at hdone ⊢
      have hready : ¬ (q.primed = false ∧ q.samples.length < minPrerollSamples) := by
        rintro ⟨hprimed, hlen⟩
        have hready := hplay (by omega) hprimed
        omega
      have hnext : after silence (some q) [.pull] = some (nextPeerSample silence q).2 := rfl
      rw [hnext, nextPeerSample_play _ hready, plays, if_neg hready]
      cases hsamples : q.samples with
      | nil =>
        rw [hsamples, List.length_nil] at hmany
        omega
      | cons sample rest =>
        rw [hsamples, List.length_cons] at hfew hmany
        have hlength := ih
          (q := { q with samples := rest, primed := ¬ rest.length < minPrerollSamples / 2 })
          hrest (done + 1) (by omega) (by dsimp only; omega) (by dsimp only; omega)
          fun hmore hprimed => by
            have hshort : rest.length < minPrerollSamples / 2 := by simpa using hprimed
            omega
        rw [List.tail_cons, hlength]
        exact Nat.add_comm _ _

theorem after_pull_succ (peer : Option (MixedPeer Sample)) (n : Nat) :
    after silence peer (List.replicate (n + 1) .pull) =
      after silence (after silence peer [.pull]) (List.replicate n .pull) := rfl

theorem playedSamples_pull_succ (peer : Option (MixedPeer Sample)) (n : Nat) :
    playedSamples silence peer (List.replicate (n + 1) .pull) = (plays peer .pull).toList ++
      playedSamples silence (after silence peer [.pull]) (List.replicate n .pull) := rfl

theorem playedSamples_waiting {q : MixedPeer Sample} (n : Nat)
    (hwait : q.primed = false ∧ q.samples.length < minPrerollSamples) :
    playedSamples silence (some q) (List.replicate n .pull) = [] ∧
      after silence (some q) (List.replicate n .pull) = some q := by
  have hnext : after silence (some q) [.pull] = some q := by
    have heq : after silence (some q) [.pull] = some (nextPeerSample silence q).2 := rfl
    rw [heq, nextPeerSample_wait _ hwait]
  induction n with
  | zero => exact ⟨rfl, rfl⟩
  | succ n ih =>
    rw [playedSamples_pull_succ, after_pull_succ, hnext, plays, if_pos hwait]
    exact ih

/-- Without pushes a peer that plays stops short of half a preroll. -/
theorem playedSamples_tail {q : MixedPeer Sample} (n : Nat)
    (hplay : ¬ (q.primed = false ∧ q.samples.length < minPrerollSamples))
    (hhalf : minPrerollSamples / 2 ≤ q.samples.length) :
    playedSamples silence (some q) (List.replicate n .pull) =
        q.samples.take (min n (q.samples.length - (minPrerollSamples / 2 - 1))) ∧
      queued (after silence (some q) (List.replicate n .pull)) =
        q.samples.drop (min n (q.samples.length - (minPrerollSamples / 2 - 1))) := by
  have hconst : minPrerollSamples = 9600 := rfl
  induction n generalizing q with
  | zero => simp [playedSamples, after, queued]
  | succ n ih =>
    have hnext : after silence (some q) [.pull] = some (nextPeerSample silence q).2 := rfl
    rw [playedSamples_pull_succ, after_pull_succ, hnext, nextPeerSample_play _ hplay, plays,
      if_neg hplay]
    cases hsamples : q.samples with
    | nil =>
      rw [hsamples, List.length_nil] at hhalf
      omega
    | cons sample rest =>
      rw [hsamples, List.length_cons] at hhalf
      rw [List.tail_cons, List.head?_cons, Option.toList_some, List.length_cons]
      by_cases hlast : rest.length < minPrerollSamples / 2
      · have hone : min (n + 1) (rest.length + 1 - (minPrerollSamples / 2 - 1)) = 1 := by omega
        obtain ⟨hplayed, hafter⟩ := playedSamples_waiting silence n
          (q := { q with samples := rest, primed := ¬ rest.length < minPrerollSamples / 2 })
          ⟨by simpa using hlast, by dsimp only; omega⟩
        rw [hplayed, hafter, hone]
        exact ⟨rfl, rfl⟩
      · have hmore : min (n + 1) (rest.length + 1 - (minPrerollSamples / 2 - 1)) =
            min n (rest.length - (minPrerollSamples / 2 - 1)) + 1 := by omega
        obtain ⟨hplayed, hafter⟩ :=
          ih (q := { q with samples := rest, primed := ¬ rest.length < minPrerollSamples / 2 })
            (fun hwait => hlast (by simpa using hwait.1)) (Nat.not_lt.mp hlast)
        rw [hplayed, hafter, hmore]
        exact ⟨rfl, rfl⟩

/-- How much of what is pushed at once is heard in some frames, when nothing
is pushed afterwards. -/
def spurtHeard (len frames : Nat) : Nat :=
  if len < minPrerollSamples then 0 else min frames (len - (minPrerollSamples / 2 - 1))

/-- What a queue keeps of what is pushed at once: the newest half second. -/
def spurtKept (pcm : List Sample) : List Sample := pcm.drop (pcm.length - maxQueuedSamples)

/-- A peer of which nothing is queued or playing, as when it is new. -/
def Fresh (peer : Option (MixedPeer Sample)) : Prop :=
  ∀ q ∈ peer, q.samples = [] ∧ q.primed = false

theorem playedSamples_spurt {peer : Option (MixedPeer Sample)} (hfresh : Fresh peer)
    (pcm : List Sample) (n : Nat) :
    playedSamples silence peer (.push pcm :: List.replicate n .pull) =
        (spurtKept pcm).take (spurtHeard (spurtKept pcm).length n) ∧
      queued (after silence peer (.push pcm :: List.replicate n .pull)) =
        (spurtKept pcm).drop (spurtHeard (spurtKept pcm).length n) := by
  let q : MixedPeer Sample := (peer.getD (.new "default" "peer")).pushPcm pcm
  have hpushed : q.samples = spurtKept pcm ∧ q.primed = false := by
    cases peer with
    | none => exact ⟨popOverflow_eq pcm, rfl⟩
    | some old =>
      obtain ⟨hempty, hprimed⟩ := hfresh old rfl
      have hsamples : q.samples = popOverflow (old.samples ++ pcm) := rfl
      exact ⟨by rw [hsamples, hempty, List.nil_append, popOverflow_eq, spurtKept], hprimed⟩
  have hnext : after silence peer [.push pcm] = some q := rfl
  have hplayed : playedSamples silence peer (.push pcm :: List.replicate n .pull) =
      playedSamples silence (some q) (List.replicate n .pull) := by
    rw [playedSamples, hnext]
    rfl
  rw [hplayed, after_cons, hnext, ← hpushed.1, spurtHeard]
  split_ifs with hshort
  · obtain ⟨hwaits, hafter⟩ := playedSamples_waiting silence n ⟨hpushed.2, hshort⟩
    rw [hwaits, hafter]
    exact ⟨rfl, rfl⟩
  · have hhalf : minPrerollSamples / 2 ≤ q.samples.length := by omega
    exact playedSamples_tail silence n (fun hwait => hshort hwait.2) hhalf

/-- What a peer adds to a frame is silence only while it waits. -/
theorem sampleAt_eq (q : MixedPeer Sample) (frame : Nat) :
    sampleAt silence q frame =
      (plays (after silence (some q) (List.replicate frame .pull)) .pull).getD silence := by
  rw [after_pulls, Option.map_some, plays, sampleAt]
  generalize (fun q => (nextPeerSample silence q).2)^[frame] q = q'
  by_cases hwait : q'.primed = false ∧ q'.samples.length < minPrerollSamples
  · rw [if_pos hwait, nextPeerSample_wait _ hwait]
    rfl
  · rw [if_neg hwait, nextPeerSample_play _ hwait]

end PeerOutput

end

section

variable {ρ : SampleArith} {Out : Type} {fromOutputSample : ρ.Sample → Out}
  {peers peers' : MixedPeers ρ.Sample} {pre tr : List (MixerTransition ρ Out)} {peerId : String}

open PeerOutput

/-- All that happens to a peer in a run of the mix. -/
def peerEvents (peerId : String) (tr : List (MixerTransition ρ Out)) :
    List (PeerOutputEvent ρ.Sample) := tr.flatMap fun x => x.input.peerEvents peerId

/-- What is heard of a peer was pushed for it, in that order, and is never
silence for lack of samples. -/
theorem mixer_fifo (h : MixerRun ρ fromOutputSample tr peers) (peerId : String) :
    (playedSamples 0 none (peerEvents peerId tr) ++ queued (peers.lookup peerId)).Sublist
        ((peerEvents peerId tr).flatMap pushedPcm) ∧
      ∀ q, peers.lookup peerId = some q → q.Sized ∧ ∀ frame, sampleAt 0 q frame =
        (plays (after 0 (some q) (List.replicate frame .pull)) .pull).getD 0 := by
  have hlookup := mixer_lookup_run h peerId
  have hnone : (∅ : MixedPeers ρ.Sample).lookup peerId = none := Finmap.lookup_empty peerId
  rw [hnone] at hlookup
  constructor
  · have hsublist := playedSamples_sublist (0 : ρ.Sample) none (peerEvents peerId tr)
    rw [hlookup]
    exact hsublist
  · intro q hq
    rw [hlookup] at hq
    have hsized := sized_run (0 : ρ.Sample) fun _ hnone => absurd hnone (Option.not_mem_none _)
    exact ⟨hsized _ q hq, sampleAt_eq 0 q⟩

/-- A peer with a preroll is heard for a tenth of a second at least, whatever
happens to the others. -/
theorem mixer_burst {q : MixedPeer ρ.Sample} (hrun : MixerRun ρ fromOutputSample pre peers)
    (h : Trace (MixedPeers.step ρ fromOutputSample) peers tr peers')
    (hpeer : peers.lookup peerId = some q) (hready : minPrerollSamples ≤ q.samples.length)
    (hkept : ∀ e ∈ peerEvents peerId tr, isRemove e = false)
    (hpulls : (peerEvents peerId tr).countP isPull ≤ 4801) :
    (playedSamples 0 (peers.lookup peerId) (peerEvents peerId tr)).length =
        (peerEvents peerId tr).countP isPull ∧
      peers'.lookup peerId = after 0 (peers.lookup peerId) (peerEvents peerId tr) := by
  have hsized := ((mixer_fifo hrun peerId).2 q hpeer).1
  refine ⟨?_, mixer_lookup_run h peerId⟩
  rw [hpeer]
  exact playedSamples_burst 0 hkept 0 (by omega) hsized.bounded (by omega) fun _ _ => hready

/-- Of what is pushed at once for a new peer the newest half second is kept.
Nothing of it is heard without a preroll, and the end of it waits for what is
pushed next. -/
theorem mixer_tail {pcm : List ρ.Sample} {n : Nat}
    (h : Trace (MixedPeers.step ρ fromOutputSample) peers tr peers')
    (hfresh : Fresh (peers.lookup peerId))
    (hevents : peerEvents peerId tr = .push pcm :: List.replicate n .pull) :
    playedSamples 0 (peers.lookup peerId) (peerEvents peerId tr) =
        (spurtKept pcm).take (spurtHeard (spurtKept pcm).length n) ∧
      queued (peers'.lookup peerId) =
        (spurtKept pcm).drop (spurtHeard (spurtKept pcm).length n) := by
  have hlookup : peers'.lookup peerId = after 0 (peers.lookup peerId) (peerEvents peerId tr) :=
    mixer_lookup_run h peerId
  rw [hlookup, hevents]
  exact playedSamples_spurt 0 hfresh pcm n

end

open PeerOutput

/-- A mix of two peers. One has been registered, the other has been pushed some
samples. -/
def pushedAnn (pcm : List binary32.Sample) : MixedPeers binary32.Sample :=
  ((∅ : MixedPeers binary32.Sample).handleCommand (.registerPeerOutput "bob" "bus-bob" "Bob"))
    |>.handleCommand (.pushPeerPcm "ann" pcm)

theorem pushedAnn_lookup (pcm : List binary32.Sample) : (pushedAnn pcm).lookup "ann" =
    some ((MixedPeer.new "default" "peer").pushPcm pcm) := by
  simp only [pushedAnn, MixedPeers.handleCommand, Finmap.lookup_insert]
  rw [Finmap.lookup_insert_of_ne _ (by decide), Finmap.lookup_empty, Option.getD_none]

theorem pushedAnn_run (pcm : List binary32.Sample) :
    ∃ tr : List (MixerTransition binary32 binary32.Sample),
      MixerRun binary32 id tr (pushedAnn pcm) ∧ peerEvents "ann" tr = [.push pcm] := by
  refine ⟨[⟨∅, .command (.registerPeerOutput "bob" "bus-bob" "Bob"), [], _⟩,
    ⟨_, .command (.pushPeerPcm "ann" pcm), [], pushedAnn pcm⟩],
    .cons rfl (.cons rfl (.nil _)), ?_⟩
  simp [peerEvents, MixerEvent.peerEvents, BackendCommand.peerEvents]

theorem pushedAnn_fill (pcm : List binary32.Sample) (frames : Nat) :
    ∃ (tr : List (MixerTransition binary32 binary32.Sample)) (peers : MixedPeers binary32.Sample),
      Trace (MixedPeers.step binary32 id) (pushedAnn pcm) tr peers ∧
        peerEvents "ann" tr = List.replicate frames .pull := by
  have hkeys : ["bob", "ann"].toFinset = (pushedAnn pcm).keys := by
    ext peerId
    simp [pushedAnn, MixedPeers.handleCommand, Finmap.mem_keys, Finmap.mem_insert,
      Finmap.notMem_empty, or_comm]
  have hlength : (chunkLengths 1 frames).length = frames := by
    simp [chunkLengths, Nat.mod_one]
  let filled := fillFrames binary32 id ["bob", "ann"] (chunkLengths 1 frames) (pushedAnn pcm)
  have hstep : (pushedAnn pcm).step binary32 id (.fillOutputBuffer 1 frames ["bob", "ann"]) =
      some filled := by
    rw [MixedPeers.step, if_pos ⟨by decide, hkeys⟩]
  refine ⟨[⟨pushedAnn pcm, .fillOutputBuffer 1 frames ["bob", "ann"], filled.1, filled.2⟩],
    filled.2, .cons hstep (.nil _), ?_⟩
  simp [peerEvents, MixerEvent.peerEvents, hlength]

theorem pushedAnn_filled (pcm : List binary32.Sample) (frames : Nat) :
    ∃ (tr : List (MixerTransition binary32 binary32.Sample)) (peers : MixedPeers binary32.Sample),
      MixerRun binary32 id tr peers ∧
        peerEvents "ann" tr = .push pcm :: List.replicate frames .pull := by
  obtain ⟨pre, hpre, hpush⟩ := pushedAnn_run pcm
  obtain ⟨tr, peers, htr, hevents⟩ := pushedAnn_fill pcm frames
  refine ⟨pre ++ tr, peers, Trace.append_iff.mpr ⟨_, hpre, htr⟩, ?_⟩
  rw [peerEvents, List.flatMap_append, ← peerEvents, ← peerEvents, hpush, hevents,
    List.singleton_append]

/-- More than a queue takes: a quarter of it has to go. -/
def longSpurt : List binary32.Sample := List.replicate 16000 0 ++ List.replicate 16000 1

theorem longSpurt_length : longSpurt.length = 32000 := by
  rw [longSpurt, List.length_append, List.length_replicate, List.length_replicate]

theorem longSpurt_kept :
    spurtKept longSpurt = List.replicate 8000 0 ++ List.replicate 16000 1 := by
  rw [spurtKept, longSpurt_length, longSpurt, List.drop_append, List.drop_replicate,
    List.drop_replicate, List.length_replicate]
  rfl

/-- The first samples of the spurt are lost, the next are heard, and the last
wait. -/
theorem mixer_fifo_longSpurt : ∃ (tr : List (MixerTransition binary32 binary32.Sample))
    (peers : MixedPeers binary32.Sample), MixerRun binary32 id tr peers ∧
      playedSamples 0 none (peerEvents "ann" tr) = List.replicate 8000 0 ++ List.replicate 2000 1 ∧
      queued (peers.lookup "ann") = List.replicate 14000 1 ∧
      (playedSamples 0 none (peerEvents "ann" tr) ++ queued (peers.lookup "ann")).Sublist
          ((peerEvents "ann" tr).flatMap pushedPcm) ∧
        ∀ q, peers.lookup "ann" = some q → q.Sized ∧ ∀ frame, sampleAt 0 q frame =
          (plays (after 0 (some q) (List.replicate frame .pull)) .pull).getD 0 := by
  obtain ⟨tr, peers, hrun, hevents⟩ := pushedAnn_filled longSpurt 10000
  have hlookup : peers.lookup "ann" = after 0 none (peerEvents "ann" tr) := by
    have hrunLookup := mixer_lookup_run hrun "ann"
    rwa [Finmap.lookup_empty] at hrunLookup
  have hfresh : Fresh (none : Option (MixedPeer binary32.Sample)) := nofun
  have hspurt := playedSamples_spurt 0 hfresh longSpurt 10000
  have hheard : spurtHeard (spurtKept longSpurt).length 10000 = 10000 := by
    rw [longSpurt_kept, List.length_append, List.length_replicate, List.length_replicate]
    decide
  rw [hheard, longSpurt_kept, List.take_append, List.drop_append, List.take_replicate,
    List.take_replicate, List.drop_replicate, List.drop_replicate, List.length_replicate,
    ← hevents, ← hlookup] at hspurt
  exact ⟨tr, peers, hrun, hspurt.1, hspurt.2, mixer_fifo hrun "ann"⟩

theorem mixer_burst_ann : ∃ (tr : List (MixerTransition binary32 binary32.Sample))
    (peers : MixedPeers binary32.Sample),
    Trace (MixedPeers.step binary32 id) (pushedAnn longSpurt) tr peers ∧
      (playedSamples 0 ((pushedAnn longSpurt).lookup "ann") (peerEvents "ann" tr)).length =
        4801 := by
  obtain ⟨pre, hpre, _⟩ := pushedAnn_run longSpurt
  obtain ⟨tr, peers, htr, hevents⟩ := pushedAnn_fill longSpurt 4801
  have hcount : (peerEvents "ann" tr).countP isPull = 4801 := by
    rw [hevents, List.countP_replicate]
    rfl
  have hkept : ∀ e ∈ peerEvents "ann" tr, isRemove e = false := by
    intro e he
    rw [hevents] at he
    rw [List.eq_of_mem_replicate he]
    rfl
  have hready : minPrerollSamples ≤
      ((MixedPeer.new "default" "peer").pushPcm longSpurt).samples.length := by
    rw [length_pushPcm, longSpurt_length]
    decide
  have hburst := mixer_burst hpre htr (pushedAnn_lookup longSpurt) hready hkept hcount.le
  exact ⟨tr, peers, htr, hburst.1.trans hcount⟩

/-- Of a fifth of a second and one sample, half of the preroll is not heard. -/
theorem mixer_tail_ann : ∃ (tr : List (MixerTransition binary32 binary32.Sample))
    (peers : MixedPeers binary32.Sample), MixerRun binary32 id tr peers ∧
      (playedSamples 0 none (peerEvents "ann" tr)).length = 4802 := by
  obtain ⟨tr, peers, hrun, hevents⟩ := pushedAnn_filled (List.replicate 9601 0) 20000
  have hnone : (∅ : MixedPeers binary32.Sample).lookup "ann" = none := Finmap.lookup_empty "ann"
  have htail := mixer_tail hrun (by rw [hnone]; nofun) hevents
  rw [hnone] at htail
  refine ⟨tr, peers, hrun, ?_⟩
  rw [htail.1, List.length_take, spurtKept, List.length_drop, List.length_replicate]
  decide

end Voicers
