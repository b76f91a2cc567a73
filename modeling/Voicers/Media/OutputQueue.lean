import Voicers.Lib.Trace
import Mathlib.Data.List.Flatten
import Mathlib.Tactic.Cases
import Mathlib.Tactic.SplitIfs

/-! The queue of one peer in front of its output stream (`pipewire_native` in
`audio_backend.rs`). Pushes append to it and cut it to half a second, the
callback of the stream takes samples off it once it holds a preroll. Samples
are moved and never computed with: they are `f32` bit patterns. -/

namespace Voicers

open Lib

def maxQueuedSamples : Nat := 48000 / 2
def minPrerollSamples : Nat := 48000 / 5
def bytesPerSample : Nat := 4

structure PeerQueue where
  samples : List UInt32
  primed : Bool
deriving DecidableEq

/-- The mutex of a queue; a panic of a holder would poison it. -/
structure PeerQueueLock where
  queue : PeerQueue
  poisoned : Bool
deriving DecidableEq

inductive OutputEvent
  | pushPeerPcm (pcm : List UInt32)
  | fillOutputBuffer (slice : List UInt8)
deriving DecidableEq

/-- What a command answers, or what a callback leaves in its buffer. -/
inductive OutputAnswer
  | queued
  | error (message : String)
  | filled (slice : List UInt8)
deriving DecidableEq

def toLeBytes (sample : UInt32) : List UInt8 :=
  [UInt8.ofNat sample.toNat, UInt8.ofNat (sample.toNat / 256), UInt8.ofNat (sample.toNat / 65536),
    UInt8.ofNat (sample.toNat / 16777216)]

/-- `0.0_f32`. -/
def silentSample : UInt32 := 0

/-- The overflow loop of a push. -/
def trimOldest : List UInt32 → List UInt32
  | [] => []
  | oldest :: rest =>
    if maxQueuedSamples < (oldest :: rest).length then trimOldest rest else oldest :: rest

/-- Whole chunks take the oldest sample, or silence; what is left of the buffer
after the last whole chunk stays as it is. -/
def popChunks : List UInt8 → List UInt32 → List UInt8 × List UInt32
  | _ :: _ :: _ :: _ :: slice, samples =>
    let r := popChunks slice samples.tail
    (toLeBytes (samples.head?.getD silentSample) ++ r.1, r.2)
  | slice, samples => (slice, samples)

def silenceChunks : List UInt8 → List UInt8
  | _ :: _ :: _ :: _ :: slice => toLeBytes silentSample ++ silenceChunks slice
  | slice => slice

namespace PeerQueueLock

/-- The queue a newly registered peer gets. -/
def registered : PeerQueueLock where
  queue := { samples := [], primed := false }
  poisoned := false

def pushPeerPcm (lock : PeerQueueLock) (pcm : List UInt32) : OutputAnswer × PeerQueueLock :=
  if lock.poisoned then (.error "pipewire peer queue lock poisoned", lock)
  else (.queued,
    { lock with queue := { lock.queue with samples := trimOldest (lock.queue.samples ++ pcm) } })

def withSamples (lock : PeerQueueLock) (samples : List UInt32) : PeerQueueLock :=
  { lock with queue := { lock.queue with samples := samples } }

def fillOutputBuffer (lock : PeerQueueLock) (slice : List UInt8) : OutputAnswer × PeerQueueLock :=
  if lock.poisoned then (.filled (silenceChunks slice), lock)
  else if lock.queue.primed = false ∧ lock.queue.samples.length < minPrerollSamples then
    (.filled (silenceChunks slice), lock)
  else
    let r := popChunks slice lock.queue.samples
    (.filled r.1, { lock with
      queue := { samples := r.2, primed := ¬ r.2.length < minPrerollSamples / 2 } })

def step (lock : PeerQueueLock) : OutputEvent → Option (OutputAnswer × PeerQueueLock)
  | .pushPeerPcm pcm => some (lock.pushPeerPcm pcm)
  | .fillOutputBuffer slice => some (lock.fillOutputBuffer slice)

end PeerQueueLock

abbrev OutputTransition := Transition PeerQueueLock OutputEvent OutputAnswer

/-- Commands and callbacks on a queue that has just been registered, in the
order in which they take its lock. -/
def outputRun (events : List OutputEvent) : Option (List OutputTransition × PeerQueueLock) :=
  execute PeerQueueLock.step PeerQueueLock.registered events

inductive SampleFate
  | dequeued
  | dropped
  | queued
deriving DecidableEq

def pushedSamples (x : OutputTransition) : List UInt32 :=
  match x.input with
  | .pushPeerPcm pcm => pcm
  | .fillOutputBuffer _ => []

/-- What was in the queue, or came, and is not in it any more. -/
def leavingSamples (x : OutputTransition) : List UInt32 :=
  (x.before.queue.samples ++ pushedSamples x).take
    ((x.before.queue.samples ++ pushedSamples x).length - x.after.queue.samples.length)

def leavingFate (x : OutputTransition) : SampleFate :=
  match x.input with
  | .pushPeerPcm _ => .dropped
  | .fillOutputBuffer _ => .dequeued

/-- The samples of a run with what became of each, in the order in which they
left the queue; those still queued come last. -/
def sampleFates (tr : List OutputTransition) (lock : PeerQueueLock) : List (SampleFate × UInt32) :=
  tr.flatMap (fun x => (leavingSamples x).map fun sample => (leavingFate x, sample)) ++
    lock.queue.samples.map fun sample => (.queued, sample)

def dequeuedSamples (tr : List OutputTransition) : List UInt32 :=
  tr.flatMap fun x => if leavingFate x = .dequeued then leavingSamples x else []

/-- A buffer with the samples in front, silence up to its last whole chunk,
and its own bytes after that. -/
def writtenBuffer (slice : List UInt8) (samples : List UInt32) : List UInt8 :=
  (samples ++ List.replicate (slice.length / bytesPerSample - samples.length) silentSample).flatMap
    toLeBytes ++ slice.drop (bytesPerSample * (slice.length / bytesPerSample))

/-- A push appends, and drops from the front as much as is over the bound. -/
def DropsOldest (x : OutputTransition) (pcm : List UInt32) : Prop :=
  x.before.queue.samples ++ pcm = leavingSamples x ++ x.after.queue.samples ∧
    (leavingSamples x).length = x.before.queue.samples.length + pcm.length - maxQueuedSamples ∧
    x.after.queue.samples.length ≤ maxQueuedSamples

/-- A callback leaves the queue alone and writes silence, or it writes the
oldest samples, as many as it has whole chunks for. -/
def PlaysOldest (x : OutputTransition) (slice : List UInt8) : Prop :=
  (x.output = .filled (writtenBuffer slice []) ∧ leavingSamples x = [] ∧
    x.after.queue.samples = x.before.queue.samples) ∨
  (x.output = .filled (writtenBuffer slice (leavingSamples x)) ∧
    leavingSamples x = x.before.queue.samples.take (slice.length / bytesPerSample) ∧
    x.after.queue.samples = x.before.queue.samples.drop (slice.length / bytesPerSample))

structure DropOldestFifo (tr : List OutputTransition) (lock : PeerQueueLock) : Prop where
  fates : (sampleFates tr lock).map Prod.snd = tr.flatMap pushedSamples
  order : (dequeuedSamples tr).Sublist (tr.flatMap pushedSamples)
  push : ∀ x ∈ tr, ∀ pcm, x.input = .pushPeerPcm pcm → DropsOldest x pcm
  callback : ∀ x ∈ tr, ∀ slice, x.input = .fillOutputBuffer slice → PlaysOldest x slice
  primed : ∀ x ∈ tr, ∀ slice, x.input = .fillOutputBuffer slice → x.after.queue.primed = true →
    minPrerollSamples / 2 ≤ x.after.queue.samples.length

theorem trimOldest_eq (samples : List UInt32) :
    trimOldest samples = samples.drop (samples.length - maxQueuedSamples) := by
  induction samples with
  | nil => rfl
  | cons oldest rest ih =>
    rw [trimOldest]
    split_ifs with hlong
    · rw [List.length_cons] at hlong ⊢
      have hmore : rest.length + 1 - maxQueuedSamples = rest.length - maxQueuedSamples + 1 := by omega
      rw [ih, hmore, List.drop_succ_cons]
    · rw [Nat.sub_eq_zero_of_le (Nat.not_lt.mp hlong), List.drop_zero]

theorem trimOldest_length (samples : List UInt32) :
    (trimOldest samples).length ≤ maxQueuedSamples := by
  rw [trimOldest_eq, List.length_drop]
  omega

/-- It makes no difference whether the queue is cut to its bound in between. -/
theorem trimOldest_append (samples more : List UInt32) :
    trimOldest (trimOldest samples ++ more) = trimOldest (samples ++ more) := by
  simp only [trimOldest_eq, List.length_append, List.length_drop]
  by_cases hfits : samples.length ≤ maxQueuedSamples
  · simp [Nat.sub_eq_zero_of_le hfits]
  · have hover : samples.length + more.length - maxQueuedSamples =
        samples.length - maxQueuedSamples + more.length := by omega
    have hfull : samples.length - (samples.length - maxQueuedSamples) + more.length -
        maxQueuedSamples = more.length := by omega
    rw [hover, hfull, ← List.drop_drop, List.drop_append_of_le_length (Nat.sub_le _ _)]

/-- Half a second pushes out all that is older. -/
theorem trimOldest_full {older samples : List UInt32} (h : samples.length = maxQueuedSamples) :
    trimOldest (older ++ samples) = samples := by
  rw [trimOldest_eq, List.length_append, h, Nat.add_sub_cancel, List.drop_left]

theorem writtenBuffer_cons {slice : List UInt8} {b c d e : UInt8} (samples : List UInt32) :
    writtenBuffer (b :: c :: d :: e :: slice) (samples.take ((slice.length + 4) / bytesPerSample)) =
      toLeBytes (samples.head?.getD silentSample) ++
        writtenBuffer slice (samples.tail.take (slice.length / bytesPerSample)) := by
  have hchunks : (slice.length + 4) / bytesPerSample = slice.length / bytesPerSample + 1 := by
    simp only [bytesPerSample]
    omega
  have hdrop : bytesPerSample * (slice.length / bytesPerSample + 1) =
      bytesPerSample * (slice.length / bytesPerSample) + 4 := Nat.mul_succ _ _
  cases samples with
  | nil =>
    simp only [writtenBuffer, List.length_cons, hchunks, hdrop, List.take_nil, List.tail_nil,
      List.head?_nil, Option.getD_none, List.nil_append, List.length_nil, Nat.sub_zero,
      List.replicate_succ, List.flatMap_cons, List.append_assoc, List.drop_succ_cons]
  | cons sample samples =>
    simp only [writtenBuffer, List.length_cons, hchunks, hdrop, List.take_succ_cons, List.tail_cons,
      List.head?_cons, Option.getD_some, List.cons_append, List.flatMap_cons, List.append_assoc,
      List.drop_succ_cons, Nat.add_sub_add_right]

theorem writtenBuffer_short (slice : List UInt8) (samples : List UInt32)
    (h : slice.length < bytesPerSample) :
    (slice, samples) = (writtenBuffer slice (samples.take (slice.length / bytesPerSample)),
      samples.drop (slice.length / bytesPerSample)) := by
  simp [writtenBuffer, Nat.div_eq_of_lt h]

theorem popChunks_eq : ∀ (slice : List UInt8) (samples : List UInt32),
    popChunks slice samples =
      (writtenBuffer slice (samples.take (slice.length / bytesPerSample)),
        samples.drop (slice.length / bytesPerSample))
  | [], samples => writtenBuffer_short [] samples (show 0 < 4 by decide)
  | [b], samples => writtenBuffer_short [b] samples (show 1 < 4 by decide)
  | [b, c], samples => writtenBuffer_short [b, c] samples (show 2 < 4 by decide)
  | [b, c, d], samples => writtenBuffer_short [b, c, d] samples (show 3 < 4 by decide)
  | b :: c :: d :: e :: slice, samples => by
    have hchunks : (slice.length + 4) / bytesPerSample = slice.length / bytesPerSample + 1 := by
      simp only [bytesPerSample]
      omega
    have hlen : (b :: c :: d :: e :: slice).length = slice.length + 4 := rfl
    rw [popChunks, popChunks_eq slice, hlen, writtenBuffer_cons]
    simp only [hchunks, List.drop_tail]

theorem PeerQueueLock.fillOutputBuffer_ready {lock : PeerQueueLock} (h : lock.poisoned = false)
    (hready : minPrerollSamples ≤ lock.queue.samples.length) (slice : List UInt8) :
    lock.fillOutputBuffer slice =
      (.filled (writtenBuffer slice (lock.queue.samples.take (slice.length / bytesPerSample))),
        { lock with queue :=
            { samples := lock.queue.samples.drop (slice.length / bytesPerSample)
              primed := ¬ (lock.queue.samples.drop (slice.length / bytesPerSample)).length <
                minPrerollSamples / 2 } }) := by
  have hplays : ¬ (lock.queue.primed = false ∧ lock.queue.samples.length < minPrerollSamples) :=
    fun hwait => Nat.not_lt.mpr hready hwait.2
  rw [fillOutputBuffer, if_neg (by rw [h]; exact Bool.false_ne_true), if_neg hplays, popChunks_eq]

theorem silenceChunks_eq_popChunks : ∀ slice : List UInt8,
    silenceChunks slice = (popChunks slice []).1
  | [] => rfl
  | [_] => rfl
  | [_, _] => rfl
  | [_, _, _] => rfl
  | _ :: _ :: _ :: _ :: slice => congrArg (toLeBytes silentSample ++ ·)
    (silenceChunks_eq_popChunks slice)

theorem silenceChunks_eq (slice : List UInt8) : silenceChunks slice = writtenBuffer slice [] := by
  rw [silenceChunks_eq_popChunks, popChunks_eq, List.take_nil]

section

variable {x : OutputTransition}

theorem leavingSamples_eq {gone : List UInt32}
    (h : x.before.queue.samples ++ pushedSamples x = gone ++ x.after.queue.samples) :
    leavingSamples x = gone := by
  have hlen : (gone ++ x.after.queue.samples).length - x.after.queue.samples.length =
      gone.length := by
    rw [List.length_append, Nat.add_sub_cancel]
  rw [leavingSamples, h, hlen, List.take_left']
  rfl

theorem PeerQueueLock.pushPeerPcm_sound {lock : PeerQueueLock} (h : lock.poisoned = false)
    (pcm : List UInt32) : lock.pushPeerPcm pcm =
      (.queued, lock.withSamples (trimOldest (lock.queue.samples ++ pcm))) := by
  rw [pushPeerPcm, if_neg (by rw [h]; exact Bool.false_ne_true)]
  rfl

/-- The lock stays sound: no holder panics. -/
theorem outputStep_sound (h : x.before.poisoned = false)
    (hs : x.before.step x.input = some (x.output, x.after)) : x.after.poisoned = false := by
  cases hi : x.input with
  | pushPeerPcm pcm =>
    simp only [hi, PeerQueueLock.step, PeerQueueLock.pushPeerPcm, h, Option.some.injEq,
      Bool.false_eq_true, if_false, Prod.mk.injEq] at hs
    rw [← hs.2]
  | fillOutputBuffer slice =>
    simp only [hi, PeerQueueLock.step, PeerQueueLock.fillOutputBuffer, h, Option.some.injEq,
      Bool.false_eq_true, if_false] at hs
    split_ifs at hs with hwait
    · rw [← (Prod.mk.inj hs).2, h]
    · rw [← (Prod.mk.inj hs).2]

theorem push_dropsOldest {pcm : List UInt32} (h : x.before.poisoned = false)
    (hs : x.before.step x.input = some (x.output, x.after)) (hi : x.input = .pushPeerPcm pcm) :
    DropsOldest x pcm := by
  simp only [hi, PeerQueueLock.step, PeerQueueLock.pushPeerPcm, h, Option.some.injEq,
    Bool.false_eq_true, if_false, Prod.mk.injEq] at hs
  have hafter : x.after.queue.samples = (x.before.queue.samples ++ pcm).drop
      ((x.before.queue.samples ++ pcm).length - maxQueuedSamples) := by
    rw [← hs.2, trimOldest_eq]
  have hsplit := (List.take_append_drop ((x.before.queue.samples ++ pcm).length - maxQueuedSamples)
    (x.before.queue.samples ++ pcm)).symm
  rw [← hafter] at hsplit
  have hpushed : pushedSamples x = pcm := by rw [pushedSamples, hi]
  have hgone := leavingSamples_eq (x := x) (by rw [hpushed]; exact hsplit)
  refine ⟨hgone ▸ hsplit, ?_, ?_⟩
  · rw [hgone, List.length_take, List.length_append]
    omega
  · rw [hafter, List.length_drop]
    omega

theorem callback_playsOldest {slice : List UInt8} (h : x.before.poisoned = false)
    (hs : x.before.step x.input = some (x.output, x.after))
    (hi : x.input = .fillOutputBuffer slice) :
    PlaysOldest x slice ∧
      (x.after.queue.primed = true → minPrerollSamples / 2 ≤ x.after.queue.samples.length) := by
  have hpushed : pushedSamples x = [] := by rw [pushedSamples, hi]
  simp only [hi, PeerQueueLock.step, PeerQueueLock.fillOutputBuffer, h, Option.some.injEq,
    Bool.false_eq_true, if_false] at hs
  split_ifs at hs with hwait
  · obtain ⟨hout, hafter⟩ := Prod.mk.inj hs
    have hgone : leavingSamples x = [] := leavingSamples_eq (by rw [hpushed, ← hafter]; simp)
    refine ⟨.inl ⟨by rw [← hout, silenceChunks_eq], hgone, by rw [← hafter]⟩, fun hprimed => ?_⟩
    rw [← hafter, hwait.1] at hprimed
    cases hprimed
  · rw [popChunks_eq] at hs
    obtain ⟨hout, hafter⟩ := Prod.mk.inj hs
    have hrest : x.after.queue.samples =
        x.before.queue.samples.drop (slice.length / bytesPerSample) := by rw [← hafter]
    have hgone : leavingSamples x =
        x.before.queue.samples.take (slice.length / bytesPerSample) := by
      refine leavingSamples_eq ?_
      rw [hpushed, hrest, List.append_nil, List.take_append_drop]
    refine ⟨.inr ⟨by rw [← hout, hgone], hgone, hrest⟩, fun hprimed => ?_⟩
    rw [← hafter] at hprimed
    rw [hrest]
    simpa using hprimed

/-- Whatever happens to the queue, what leaves it leaves from the front. -/
theorem leaves_front (h : x.before.poisoned = false)
    (hs : x.before.step x.input = some (x.output, x.after)) :
    x.before.queue.samples ++ pushedSamples x = leavingSamples x ++ x.after.queue.samples := by
  cases hi : x.input with
  | pushPeerPcm pcm =>
    rw [pushedSamples, hi]
    exact (push_dropsOldest h hs hi).1
  | fillOutputBuffer slice =>
    rw [pushedSamples, hi, List.append_nil]
    rcases (callback_playsOldest h hs hi).1 with ⟨_, hgone, hsame⟩ | ⟨_, hgone, hrest⟩
    · rw [hgone, hsame, List.nil_append]
    · rw [hgone, hrest, List.take_append_drop]

end

/-- For any interleaving of pushes and callbacks each pushed sample has one
fate, and those that are played keep their order. -/
theorem output_queue_fifo {events : List OutputEvent} {tr : List OutputTransition}
    {lock : PeerQueueLock} (h : outputRun events = some (tr, lock)) : DropOldestFifo tr lock := by
  have htrace := execute_trace h
  have hmem : ∀ x ∈ tr, x.before.poisoned = false ∧
      x.before.step x.input = some (x.output, x.after) := fun x hx =>
    htrace.of_mem (I := fun lock : PeerQueueLock => lock.poisoned = false)
      (fun s i o t hi he => outputStep_sound (x := ⟨s, i, o, t⟩) hi he) rfl hx
  have hall : tr.flatMap leavingSamples ++ lock.queue.samples = tr.flatMap pushedSamples := by
    have hrun : (∀ x ∈ tr, x.before.poisoned = false) →
        tr.flatMap leavingSamples ++ lock.queue.samples = tr.flatMap pushedSamples := by
      refine Trace.snoc_induction (P := fun tr (lock : PeerQueueLock) =>
        (∀ x ∈ tr, x.before.poisoned = false) →
          tr.flatMap leavingSamples ++ lock.queue.samples = tr.flatMap pushedSamples) ?_ ?_ htrace
      · exact fun _ => rfl
      · intro tr x _ hstep ih hsound
        have hfront := leaves_front (hsound x (by simp)) hstep
        have hbefore := ih fun y hy => hsound y (by simp [hy])
        rw [List.flatMap_append, List.flatMap_append, List.flatMap_singleton, List.flatMap_singleton,
          List.append_assoc, ← hfront, ← List.append_assoc, hbefore]
    exact hrun fun x hx => (hmem x hx).1
  have hfates : (sampleFates tr lock).map Prod.snd = tr.flatMap pushedSamples := by
    rw [← hall, sampleFates, List.map_append, List.map_flatMap]
    simp only [List.map_map, Function.comp_def, List.map_id']
  refine ⟨hfates, ?_, fun x hx pcm hi => ?_, fun x hx slice hi => ?_, fun x hx slice hi => ?_⟩
  · rw [← hall, dequeuedSamples]
    refine List.Sublist.trans ?_ (List.sublist_append_left _ _)
    refine List.Sublist.flatMap_right _ fun x _ => ?_
    split_ifs
    · exact List.Sublist.refl _
    · exact List.nil_sublist _
  · exact push_dropsOldest (hmem x hx).1 (hmem x hx).2 hi
  · exact (callback_playsOldest (hmem x hx).1 (hmem x hx).2 hi).1
  · exact (callback_playsOldest (hmem x hx).1 (hmem x hx).2 hi).2

/-- Two samples wait for a preroll and are pushed out by half a second of
others. The last two bytes of a buffer are not a whole chunk. -/
def earlyCallback : List OutputEvent :=
  [.pushPeerPcm [5, 6], .fillOutputBuffer [1, 1, 1, 1, 2, 2],
    .pushPeerPcm (List.replicate maxQueuedSamples 7), .fillOutputBuffer [1, 1, 1, 1, 2, 2]]

def waitingQueue : PeerQueueLock where
  queue := { samples := [5, 6], primed := false }
  poisoned := false

def fullQueue : PeerQueueLock where
  queue := { samples := List.replicate maxQueuedSamples 7, primed := false }
  poisoned := false

/-- A full queue plays its first sample. -/
def playingQueue : PeerQueueLock where
  queue := { samples := List.replicate (maxQueuedSamples - 1) 7, primed := true }
  poisoned := false

theorem fullQueue_plays : fullQueue.fillOutputBuffer [1, 1, 1, 1, 2, 2] =
    (.filled [7, 0, 0, 0, 2, 2], playingQueue) := by
  have hready : minPrerollSamples ≤ fullQueue.queue.samples.length := by
    rw [fullQueue, List.length_replicate]
    decide
  rw [PeerQueueLock.fillOutputBuffer_ready rfl hready, fullQueue]
  simp only [List.length_cons, List.length_nil, List.take_replicate, List.drop_replicate,
    List.length_replicate]
  rfl

def earlyTransitions : List OutputTransition :=
  [⟨.registered, .pushPeerPcm [5, 6], .queued, waitingQueue⟩,
    ⟨waitingQueue, .fillOutputBuffer [1, 1, 1, 1, 2, 2], .filled [0, 0, 0, 0, 2, 2], waitingQueue⟩,
    ⟨waitingQueue, .pushPeerPcm (List.replicate maxQueuedSamples 7), .queued, fullQueue⟩,
    ⟨fullQueue, .fillOutputBuffer [1, 1, 1, 1, 2, 2], .filled [7, 0, 0, 0, 2, 2], playingQueue⟩]

theorem earlyCallback_run : outputRun earlyCallback = some (earlyTransitions, playingQueue) := by
  have hpush : waitingQueue.pushPeerPcm (List.replicate maxQueuedSamples 7) =
      (.queued, fullQueue) := by
    rw [PeerQueueLock.pushPeerPcm_sound rfl, trimOldest_full List.length_replicate]
    rfl
  exact execute_cons rfl (execute_cons rfl (execute_cons (congrArg some hpush)
    (execute_cons (congrArg some fullQueue_plays) rfl)))

theorem earlyCallback_fates : sampleFates earlyTransitions playingQueue =
    [(.dropped, 5), (.dropped, 6), (.dequeued, 7)] ++
      List.replicate (maxQueuedSamples - 1) (.queued, 7) := by
  have hpushed : leavingSamples ⟨.registered, .pushPeerPcm [5, 6], .queued, waitingQueue⟩ = [] :=
    leavingSamples_eq rfl
  have hsilent : leavingSamples ⟨waitingQueue, .fillOutputBuffer [1, 1, 1, 1, 2, 2],
      .filled [0, 0, 0, 0, 2, 2], waitingQueue⟩ = [] := leavingSamples_eq rfl
  have hdropped : leavingSamples ⟨waitingQueue,
      .pushPeerPcm (List.replicate maxQueuedSamples 7), .queued, fullQueue⟩ = [5, 6] :=
    leavingSamples_eq rfl
  have hplayed : leavingSamples ⟨fullQueue, .fillOutputBuffer [1, 1, 1, 1, 2, 2],
      .filled [7, 0, 0, 0, 2, 2], playingQueue⟩ = [7] := by
    refine leavingSamples_eq ?_
    rw [pushedSamples, List.append_nil]
    rfl
  have hqueued : playingQueue.queue.samples = List.replicate (maxQueuedSamples - 1) 7 := rfl
  simp only [sampleFates, earlyTransitions, List.flatMap_cons, List.flatMap_nil, hpushed, hsilent,
    hdropped, hplayed, hqueued, List.map_replicate, leavingFate, List.map_cons, List.map_nil,
    List.nil_append, List.append_nil, List.cons_append]

theorem output_queue_fifo_earlyCallback : ∃ tr lock, outputRun earlyCallback = some (tr, lock) ∧
    sampleFates tr lock = [(.dropped, 5), (.dropped, 6), (.dequeued, 7)] ++
      List.replicate (maxQueuedSamples - 1) (.queued, 7) ∧ DropOldestFifo tr lock :=
  ⟨earlyTransitions, playingQueue, earlyCallback_run, earlyCallback_fates,
    output_queue_fifo earlyCallback_run⟩

end Voicers
