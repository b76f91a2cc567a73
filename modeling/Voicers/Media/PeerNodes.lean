import Voicers.Media.Mixer
import Voicers.Media.PeerMute
import Voicers.Network.Address

/-! The outputs of the peers (`drive_playout` in `media.rs`, `pipewire_native` in
`audio_backend.rs`). The engine registers the output of a peer with the first
frame it plays, and does not learn whether its stream has started. Commands
wait in a channel; a send to a full one waits as well, which changes when a
command is taken and not which. -/

namespace Voicers

open Lib

/-- The queue is shared with the stream of the node. -/
structure PeerNode where
  nodeName : String
  displayName : String
  lock : PeerQueueLock

abbrev PeerNodes := Finmap fun _ : String => PeerNode

def sanitizeLabel (label : String) : String :=
  String.ofList (label.toList.map fun ch => if ch.isAlphanum then ch else '_')

def nodeName (peerId displayName : String) : String :=
  sanitizeLabel displayName ++ "_" ++ shortPeerId peerId

namespace PeerNodes

/-- `streamError` is why a stream cannot start, if it is to. -/
def ensurePeerNode (nodes : PeerNodes) (streamError : Option String) (peerId displayName : String) :
    OutputAnswer × PeerNodes :=
  if (nodes.lookup peerId).any (fun node =>
      node.nodeName = nodeName peerId displayName ∧ node.displayName = displayName) then
    (.queued, nodes)
  else
    match streamError with
    | some message => (.error message, nodes.erase peerId)
    | none =>
      (.queued, nodes.insert peerId
        { nodeName := nodeName peerId displayName
          displayName := displayName
          lock := PeerQueueLock.registered })

def handleCommand (nodes : PeerNodes) (streamError : Option String) :
    BackendCommand UInt32 → OutputAnswer × PeerNodes
  | .registerPeerOutput peerId _ displayName => nodes.ensurePeerNode streamError peerId displayName
  | .removePeerOutput peerId => (.queued, nodes.erase peerId)
  | .pushPeerPcm peerId pcm =>
    match nodes.lookup peerId with
    | none => (.queued, nodes)
    | some node =>
      let pushed := node.lock.pushPeerPcm pcm
      (pushed.1, nodes.insert peerId { node with lock := pushed.2 })

/-- The samples that wait in the queue of a node. -/
def queued (nodes : PeerNodes) (peerId : String) : List UInt32 :=
  (nodes.lookup peerId).elim [] fun node => node.lock.queue.samples

end PeerNodes

def DaemonStatus.peerOutputMetadata (state : DaemonStatus) (peerId : String) : String × String :=
  match state.peer? peerId with
  | some peer => (peer.outputBus, peer.displayName)
  | none => ("peer_bus_" ++ shortPeerId peerId, "peer " ++ shortPeerId peerId)

variable (κ : Codec)

/-- The engine, the peers with `output_registered`, the commands on their way,
and the nodes. -/
structure Speaker where
  playback : PlaybackState κ
  registered : Finset String
  channel : List (BackendCommand UInt32)
  nodes : PeerNodes

/-- A call of the engine, a command the backend takes, a callback of a stream. -/
inductive SpeakerEvent
  | engine (e : PlaybackEvent κ)
  | take (streamError : Option String)
  | process (peerId : String) (slice : List UInt8)

variable {κ}

namespace Speaker

/-- A frame, after the registration of its peer when that is due. -/
def sendFrame (status : DaemonStatus) (s : Speaker κ) (frame : String × List UInt32) : Speaker κ :=
  let metadata := status.peerOutputMetadata frame.1
  { s with
    registered := insert frame.1 s.registered
    channel := s.channel ++
      (if frame.1 ∈ s.registered then [] else [.registerPeerOutput frame.1 metadata.1 metadata.2]) ++
      [.pushPeerPcm frame.1 frame.2] }

def sendRemove (s : Speaker κ) (peerId : String) : Speaker κ :=
  { s with
    registered := s.registered.erase peerId
    channel := s.channel ++ [.removePeerOutput peerId] }

/-- What the engine sends for a call: it removes the output of a peer that is
disconnected, unless it has panicked. -/
def send (status : DaemonStatus) (frames : List (String × List UInt32)) (s : Speaker κ) :
    PlaybackEvent κ → Speaker κ
  | .command (.disconnectPeer peerId) =>
    if s.playback.media.isSome then s.sendRemove peerId else s
  | _ => frames.foldl (sendFrame status) s

variable (π : Profile) (samples : κ.Pcm → List UInt32)

def step (s : Speaker κ) : SpeakerEvent κ → Option (Option OutputAnswer × Speaker κ)
  | .engine e =>
    match s.playback.step π e with
    | none => none
    | some (pcm, playback) =>
      let frames := pcm.map fun frame => (frame.1, samples frame.2)
      some (none, { s.send s.playback.status frames e with playback := playback })
  | .take streamError =>
    match s.channel with
    | [] => none
    | command :: channel =>
      let handled := s.nodes.handleCommand streamError command
      some (some handled.1, { s with channel := channel, nodes := handled.2 })
  | .process peerId slice =>
    match s.nodes.lookup peerId with
    | none => none
    | some node =>
      let filled := node.lock.fillOutputBuffer slice
      some (some filled.1, { s with nodes := s.nodes.insert peerId { node with lock := filled.2 } })

def start (status : DaemonStatus) : Speaker κ where
  playback := .start status
  registered := ∅
  channel := []
  nodes := ∅

end Speaker

def BackendCommand.peerId : BackendCommand UInt32 → String
  | .registerPeerOutput peerId _ _ => peerId
  | .removePeerOutput peerId => peerId
  | .pushPeerPcm peerId _ => peerId

def BackendCommand.pcmFor (peerId : String) : BackendCommand UInt32 → List UInt32
  | .registerPeerOutput .. => []
  | .removePeerOutput _ => []
  | .pushPeerPcm peerId' pcm => if peerId' = peerId then pcm else []

/-- What of a peer is on its way to its node. -/
def Speaker.waiting (s : Speaker κ) (peerId : String) : List UInt32 :=
  s.channel.flatMap (BackendCommand.pcmFor peerId)

abbrev SpeakerTransition (κ : Codec) :=
  Transition (Speaker κ) (SpeakerEvent κ) (Option OutputAnswer)

abbrev SpeakerRun (π : Profile) (samples : κ.Pcm → List UInt32) (status : DaemonStatus)
    (tr : List (SpeakerTransition κ)) (s : Speaker κ) : Prop :=
  Trace (Speaker.step π samples) (.start status) tr s

/-- The samples of a peer that the engine plays in a step. -/
def sentPcm (π : Profile) (samples : κ.Pcm → List UInt32) (peerId : String)
    (x : SpeakerTransition κ) : List UInt32 :=
  match x.input with
  | .engine e =>
    match x.before.playback.step π e with
    | some (pcm, _) => (pushed peerId pcm).flatMap samples
    | none => []
  | _ => []

/-- The samples of a peer that leave its queue in a callback. -/
def heardPcm (peerId : String) (x : SpeakerTransition κ) : List UInt32 :=
  match x.input with
  | .process peerId' _ =>
    if peerId' = peerId then
      (x.before.nodes.queued peerId).take
        ((x.before.nodes.queued peerId).length - (x.after.nodes.queued peerId).length)
    else []
  | _ => []

/-- No holder of a lock panics. -/
def PeerNodes.Sound (nodes : PeerNodes) : Prop :=
  ∀ peerId node, nodes.lookup peerId = some node → node.lock.poisoned = false

namespace PeerNodes

variable {nodes : PeerNodes} {peerId other : String} {node : PeerNode}

theorem queued_insert :
    PeerNodes.queued (nodes.insert peerId node) other =
      if other = peerId then node.lock.queue.samples else nodes.queued other := by
  rw [queued, lookup_insert_eq]
  split_ifs <;> rfl

theorem queued_erase :
    PeerNodes.queued (nodes.erase peerId) other = if other = peerId then [] else nodes.queued other := by
  rw [queued, lookup_erase_eq]
  split_ifs <;> rfl

theorem Sound.insert (h : nodes.Sound) (hnode : node.lock.poisoned = false) :
    PeerNodes.Sound (nodes.insert peerId node) := by
  intro other found hfound
  rw [lookup_insert_eq] at hfound
  split_ifs at hfound with heq
  · exact Option.some.inj hfound ▸ hnode
  · exact h other found hfound

theorem Sound.erase (h : nodes.Sound) : PeerNodes.Sound (nodes.erase peerId) := by
  intro other found hfound
  rw [lookup_erase_eq] at hfound
  split_ifs at hfound
  exact h other found hfound

theorem sound_pushPeerPcm {lock : PeerQueueLock} (h : lock.poisoned = false) (pcm : List UInt32) :
    (lock.pushPeerPcm pcm).2.poisoned = false :=
  outputStep_sound (x := ⟨lock, .pushPeerPcm pcm, (lock.pushPeerPcm pcm).1, (lock.pushPeerPcm pcm).2⟩) h rfl

theorem sound_fillOutputBuffer {lock : PeerQueueLock} (h : lock.poisoned = false) (slice : List UInt8) :
    (lock.fillOutputBuffer slice).2.poisoned = false :=
  outputStep_sound (x := ⟨lock, .fillOutputBuffer slice, (lock.fillOutputBuffer slice).1,
    (lock.fillOutputBuffer slice).2⟩) h rfl

/-- A node that is there stays, or it gives way to a new one if that starts. -/
theorem ensurePeerNode_cases (nodes : PeerNodes) (streamError : Option String)
    (peerId displayName : String) :
    ((nodes.lookup peerId).isSome ∧
        nodes.ensurePeerNode streamError peerId displayName = (.queued, nodes)) ∨
      (∃ message, streamError = some message ∧
        nodes.ensurePeerNode streamError peerId displayName = (.error message, nodes.erase peerId)) ∨
      (streamError = none ∧ nodes.ensurePeerNode streamError peerId displayName =
        (.queued, nodes.insert peerId
          { nodeName := nodeName peerId displayName
            displayName := displayName
            lock := PeerQueueLock.registered })) := by
  unfold ensurePeerNode
  split_ifs with hsame
  · refine .inl ⟨?_, rfl⟩
    cases hnode : nodes.lookup peerId with
    | none => rw [hnode] at hsame; exact absurd hsame Bool.false_ne_true
    | some node => rfl
  · cases streamError with
    | none => exact .inr (.inr ⟨rfl, rfl⟩)
    | some message => exact .inr (.inl ⟨message, rfl, rfl⟩)

theorem lookup_handleCommand_of_ne {command : BackendCommand UInt32} (streamError : Option String)
    (h : command.peerId ≠ peerId) :
    (nodes.handleCommand streamError command).2.lookup peerId = nodes.lookup peerId := by
  cases command with
  | registerPeerOutput peerId' outputBus displayName =>
    rw [PeerNodes.handleCommand]
    rcases ensurePeerNode_cases nodes streamError peerId' displayName with
      ⟨_, heq⟩ | ⟨message, _, heq⟩ | ⟨_, heq⟩
    · rw [heq]
    · rw [heq]
      exact Finmap.lookup_erase_ne (Ne.symm h)
    · rw [heq]
      exact Finmap.lookup_insert_of_ne _ (Ne.symm h)
  | removePeerOutput peerId' => exact Finmap.lookup_erase_ne (Ne.symm h)
  | pushPeerPcm peerId' pcm =>
    rw [PeerNodes.handleCommand]
    cases nodes.lookup peerId' with
    | none => rfl
    | some node => exact Finmap.lookup_insert_of_ne _ (Ne.symm h)

theorem Sound.handleCommand (h : nodes.Sound) (streamError : Option String)
    (command : BackendCommand UInt32) : (nodes.handleCommand streamError command).2.Sound := by
  cases command with
  | registerPeerOutput peerId outputBus displayName =>
    rw [PeerNodes.handleCommand]
    rcases ensurePeerNode_cases nodes streamError peerId displayName with
      ⟨_, heq⟩ | ⟨message, _, heq⟩ | ⟨_, heq⟩
    · exact heq ▸ h
    · exact heq ▸ h.erase
    · exact heq ▸ h.insert rfl
  | removePeerOutput peerId => exact h.erase
  | pushPeerPcm peerId pcm =>
    rw [PeerNodes.handleCommand]
    cases hnode : nodes.lookup peerId with
    | none => exact h
    | some node => exact h.insert (sound_pushPeerPcm (h peerId node hnode) pcm)

/-- A command adds its samples at most, and at the end. -/
theorem queued_handleCommand (h : nodes.Sound) (streamError : Option String)
    (command : BackendCommand UInt32) (peerId : String) :
    ((nodes.handleCommand streamError command).2.queued peerId).Sublist
      (nodes.queued peerId ++ command.pcmFor peerId) := by
  cases command with
  | registerPeerOutput peerId' outputBus displayName =>
    rw [BackendCommand.pcmFor, List.append_nil, PeerNodes.handleCommand]
    rcases ensurePeerNode_cases nodes streamError peerId' displayName with
      ⟨_, heq⟩ | ⟨message, _, heq⟩ | ⟨_, heq⟩
    · rw [heq]
    · rw [heq, queued_erase]
      split_ifs
      · exact List.nil_sublist _
      · exact List.Sublist.refl _
    · rw [heq, queued_insert]
      split_ifs
      · exact List.nil_sublist _
      · exact List.Sublist.refl _
  | removePeerOutput peerId' =>
    rw [BackendCommand.pcmFor, List.append_nil, PeerNodes.handleCommand, queued_erase]
    split_ifs
    · exact List.nil_sublist _
    · exact List.Sublist.refl _
  | pushPeerPcm peerId' pcm =>
    rw [PeerNodes.handleCommand, BackendCommand.pcmFor]
    cases hnode : nodes.lookup peerId' with
    | none => exact List.sublist_append_left _ _
    | some node =>
      dsimp only
      rw [queued_insert]
      by_cases heq : peerId' = peerId
      · subst heq
        have hfront := push_dropsOldest (x := ⟨node.lock, .pushPeerPcm pcm, (node.lock.pushPeerPcm pcm).1,
          (node.lock.pushPeerPcm pcm).2⟩) (h peerId' node hnode) rfl rfl
        have hqueued : nodes.queued peerId' = node.lock.queue.samples := by rw [queued, hnode]; rfl
        rw [if_pos rfl, if_pos rfl, hqueued, hfront.1]
        exact List.sublist_append_right _ _
      · rw [if_neg heq, if_neg (Ne.symm heq), List.append_nil]

end PeerNodes

section

variable {π : Profile} {samples : κ.Pcm → List UInt32} {status : DaemonStatus} {s s' : Speaker κ}
  {tr : List (SpeakerTransition κ)} {x : SpeakerTransition κ} {peerId : String}

/-- What some frames hold of a peer. -/
def framesFor (peerId : String) (frames : List (String × List UInt32)) : List UInt32 :=
  frames.flatMap fun frame => if frame.1 = peerId then frame.2 else []

theorem sendFrame_waiting (s : Speaker κ) (frame : String × List UInt32) (peerId : String) :
    (s.sendFrame status frame).waiting peerId =
      s.waiting peerId ++ if frame.1 = peerId then frame.2 else [] := by
  have hregister : (if frame.1 ∈ s.registered then [] else
      [BackendCommand.registerPeerOutput frame.1 (status.peerOutputMetadata frame.1).1
        (status.peerOutputMetadata frame.1).2]).flatMap (BackendCommand.pcmFor peerId) =
      ([] : List UInt32) := by
    split_ifs <;> rfl
  rw [Speaker.waiting, Speaker.sendFrame, List.flatMap_append, List.flatMap_append, hregister,
    List.append_nil, List.flatMap_singleton]
  rfl

theorem sendFrames_waiting (frames : List (String × List UInt32)) (s : Speaker κ) (peerId : String) :
    (frames.foldl (Speaker.sendFrame status) s).waiting peerId =
      s.waiting peerId ++ framesFor peerId frames := by
  induction frames generalizing s with
  | nil => exact (List.append_nil _).symm
  | cons frame frames ih =>
    rw [List.foldl_cons, ih, sendFrame_waiting, List.append_assoc]
    rfl

theorem sendRemove_waiting (s : Speaker κ) (removed peerId : String) :
    (s.sendRemove removed).waiting peerId = s.waiting peerId := by
  rw [Speaker.waiting, Speaker.sendRemove, List.flatMap_append, List.flatMap_singleton]
  exact List.append_nil _

/-- The calls that play nothing. -/
theorem playback_quiet {s : PlaybackState κ} {command : MediaCommand}
    {pcm : List (String × κ.Pcm)} {s' : PlaybackState κ}
    (h : s.step π (.command command) = some (pcm, s')) : pcm = [] := by
  simp only [PlaybackState.step, PlaybackState.run, Option.some.injEq] at h
  split at h
  · exact (Prod.mk.inj h).1.symm
  · exact (Prod.mk.inj h).1.symm

/-- A peer is disconnected, or frames are sent. -/
theorem send_cases (s : Speaker κ) (status : DaemonStatus) (frames : List (String × List UInt32))
    (e : PlaybackEvent κ) :
    (∃ removed, e = .command (.disconnectPeer removed) ∧
        (s.send status frames e = s.sendRemove removed ∨ s.send status frames e = s)) ∨
      s.send status frames e = frames.foldl (Speaker.sendFrame status) s := by
  unfold Speaker.send
  split
  · rename_i removed
    refine .inl ⟨removed, rfl, ?_⟩
    split_ifs
    · exact .inl rfl
    · exact .inr rfl
  · exact .inr rfl

theorem framesFor_map (pcm : List (String × κ.Pcm)) (peerId : String) :
    framesFor peerId (pcm.map fun frame => (frame.1, samples frame.2)) =
      (pushed peerId pcm).flatMap samples := by
  induction pcm with
  | nil => rfl
  | cons frame pcm ih =>
    rw [List.map_cons, framesFor, List.flatMap_cons, ← framesFor, ih, pushed, pushed]
    by_cases heq : frame.1 = peerId
    · simp [heq]
    · simp [heq]

theorem send_waiting {e : PlaybackEvent κ} {pcm : List (String × κ.Pcm)} {playback : PlaybackState κ}
    (h : s.playback.step π e = some (pcm, playback)) (peerId : String) :
    (s.send status (pcm.map fun frame => (frame.1, samples frame.2)) e).waiting peerId =
      s.waiting peerId ++ (pushed peerId pcm).flatMap samples := by
  rw [← framesFor_map]
  rcases send_cases s status (pcm.map fun frame => (frame.1, samples frame.2)) e with
    ⟨removed, rfl, hsend | hsend⟩ | hsend
  · rw [playback_quiet h] at hsend ⊢
    rw [hsend, sendRemove_waiting]
    exact (List.append_nil _).symm
  · rw [playback_quiet h] at hsend ⊢
    rw [hsend]
    exact (List.append_nil _).symm
  · rw [hsend, sendFrames_waiting]

/-- What a step of the engine leaves alone. -/
theorem sendFrames_nodes (frames : List (String × List UInt32)) (s : Speaker κ) :
    (frames.foldl (Speaker.sendFrame status) s).nodes = s.nodes := by
  induction frames generalizing s with
  | nil => rfl
  | cons frame frames ih => rw [List.foldl_cons, ih]; rfl

theorem send_nodes (s : Speaker κ) (status : DaemonStatus) (frames : List (String × List UInt32))
    (e : PlaybackEvent κ) : (s.send status frames e).nodes = s.nodes := by
  rcases send_cases s status frames e with ⟨removed, _, hsend | hsend⟩ | hsend
  · rw [hsend]
    rfl
  · rw [hsend]
  · rw [hsend, sendFrames_nodes]

/-- A step of the whole: the engine sends, the backend takes a command, or a
stream plays. -/
inductive SpeakerMove (π : Profile) (samples : κ.Pcm → List UInt32) (x : SpeakerTransition κ) : Prop
  | engine (e : PlaybackEvent κ) (pcm : List (String × κ.Pcm)) (playback : PlaybackState κ)
      (hinput : x.input = .engine e) (hstep : x.before.playback.step π e = some (pcm, playback))
      (hafter : x.after =
        { (x.before.send x.before.playback.status
            (pcm.map fun frame => (frame.1, samples frame.2)) e) with playback := playback })
  | take (streamError : Option String) (command : BackendCommand UInt32)
      (hinput : x.input = .take streamError) (hchannel : x.before.channel = command :: x.after.channel)
      (hafter : x.after =
        { x.before with
          channel := x.after.channel
          nodes := (x.before.nodes.handleCommand streamError command).2 })
  | process (peerId : String) (slice : List UInt8) (node : PeerNode)
      (hinput : x.input = .process peerId slice) (hnode : x.before.nodes.lookup peerId = some node)
      (houtput : x.output = some (node.lock.fillOutputBuffer slice).1)
      (hafter : x.after =
        { x.before with
          nodes := x.before.nodes.insert peerId
            { node with lock := (node.lock.fillOutputBuffer slice).2 } })

theorem speakerStep_move (h : x.before.step π samples x.input = some (x.output, x.after)) :
    SpeakerMove π samples x := by
  cases hinput : x.input with
  | engine e =>
    rw [hinput, Speaker.step] at h
    cases hstep : x.before.playback.step π e with
    | none => rw [hstep] at h; cases h
    | some r =>
      rw [hstep] at h
      exact .engine e r.1 r.2 hinput hstep (Prod.mk.inj (Option.some.inj h)).2.symm
  | take streamError =>
    rw [hinput, Speaker.step] at h
    cases hchannel : x.before.channel with
    | nil => rw [hchannel] at h; cases h
    | cons command channel =>
      rw [hchannel] at h
      have hafter := (Prod.mk.inj (Option.some.inj h)).2.symm
      have hrest : x.after.channel = channel := by rw [hafter]
      exact .take streamError command hinput (hrest ▸ hchannel) (by rw [hrest]; exact hafter)
  | process peerId slice =>
    rw [hinput, Speaker.step] at h
    cases hnode : x.before.nodes.lookup peerId with
    | none => rw [hnode] at h; cases h
    | some node =>
      rw [hnode] at h
      obtain ⟨houtput, hafter⟩ := Prod.mk.inj (Option.some.inj h)
      exact .process peerId slice node hinput hnode houtput.symm hafter.symm

/-- The step of its queue in a callback. -/
def callbackOf (node : PeerNode) (slice : List UInt8) : OutputTransition :=
  ⟨node.lock, .fillOutputBuffer slice, (node.lock.fillOutputBuffer slice).1,
    (node.lock.fillOutputBuffer slice).2⟩

theorem heardPcm_callback {slice : List UInt8} {node : PeerNode}
    (hinput : x.input = .process peerId slice) (hnode : x.before.nodes.lookup peerId = some node)
    (hafter : x.after.nodes =
      x.before.nodes.insert peerId { node with lock := (node.lock.fillOutputBuffer slice).2 }) :
    heardPcm peerId x = leavingSamples (callbackOf node slice) := by
  have hbefore : x.before.nodes.queued peerId = node.lock.queue.samples := by
    rw [PeerNodes.queued, hnode]
    rfl
  have hrest : x.after.nodes.queued peerId =
      (node.lock.fillOutputBuffer slice).2.queue.samples := by
    rw [hafter, PeerNodes.queued_insert, if_pos rfl]
  rw [heardPcm, hinput, leavingSamples]
  dsimp only
  rw [if_pos rfl, hbefore, hrest, callbackOf, pushedSamples, List.append_nil]

/-- In a step nothing of a peer is made up, and nothing overtakes. -/
theorem speakerStep_sublist (hmove : SpeakerMove π samples x) (hsound : x.before.nodes.Sound)
    (peerId : String) :
    x.after.nodes.Sound ∧
      (heardPcm peerId x ++ (x.after.nodes.queued peerId ++ x.after.waiting peerId)).Sublist
        (x.before.nodes.queued peerId ++ x.before.waiting peerId ++ sentPcm π samples peerId x) := by
  cases hmove with
  | engine e pcm playback hinput hstep hafter =>
    have hnodes : x.after.nodes = x.before.nodes := by rw [hafter, send_nodes]
    have hwaiting : x.after.waiting peerId =
        x.before.waiting peerId ++ (pushed peerId pcm).flatMap samples := by
      rw [hafter]
      exact send_waiting hstep peerId
    have hsent : sentPcm π samples peerId x = (pushed peerId pcm).flatMap samples := by
      rw [sentPcm, hinput]
      dsimp only
      rw [hstep]
    have hheard : heardPcm peerId x = [] := by rw [heardPcm, hinput]
    rw [hnodes, hwaiting, hsent, hheard, List.nil_append, List.append_assoc]
    exact ⟨hsound, List.Sublist.refl _⟩
  | take streamError command hinput hchannel hafter =>
    have hnodes : x.after.nodes = (x.before.nodes.handleCommand streamError command).2 := by
      rw [hafter]
    have hwaiting : x.before.waiting peerId = command.pcmFor peerId ++ x.after.waiting peerId := by
      rw [Speaker.waiting, hchannel]
      rfl
    have hheard : heardPcm peerId x = [] := by rw [heardPcm, hinput]
    have hsent : sentPcm π samples peerId x = [] := by rw [sentPcm, hinput]
    rw [hnodes, hwaiting, hheard, hsent, List.nil_append, List.append_nil, ← List.append_assoc]
    exact ⟨hsound.handleCommand streamError command,
      (PeerNodes.queued_handleCommand hsound streamError command peerId).append_right _⟩
  | process other slice node hinput hnode houtput hafter =>
    have hnodes : x.after.nodes =
        x.before.nodes.insert other { node with lock := (node.lock.fillOutputBuffer slice).2 } := by
      rw [hafter]
    have hwaiting : x.after.waiting peerId = x.before.waiting peerId := by rw [hafter]; rfl
    have hsent : sentPcm π samples peerId x = [] := by rw [sentPcm, hinput]
    have hlock := hsound other node hnode
    refine ⟨hnodes ▸ hsound.insert (PeerNodes.sound_fillOutputBuffer hlock slice), ?_⟩
    rw [hwaiting, hsent, List.append_nil, ← List.append_assoc]
    refine List.Sublist.append_right ?_ _
    by_cases heq : peerId = other
    · subst heq
      have hfront : leavingSamples (callbackOf node slice) ++
          (node.lock.fillOutputBuffer slice).2.queue.samples = node.lock.queue.samples :=
        (leaves_front (x := callbackOf node slice) hlock rfl).symm.trans (List.append_nil _)
      have hqueued : x.before.nodes.queued peerId = node.lock.queue.samples := by
        rw [PeerNodes.queued, hnode]
        rfl
      rw [heardPcm_callback hinput hnode hnodes, hnodes, PeerNodes.queued_insert, if_pos rfl, hqueued,
        hfront]
    · have hheard : heardPcm peerId x = [] := by
        rw [heardPcm, hinput]
        exact if_neg (Ne.symm heq)
      rw [hheard, hnodes, PeerNodes.queued_insert, if_neg heq, List.nil_append]

theorem speakerRun_sound (h : SpeakerRun π samples status tr s) : s.nodes.Sound :=
  h.invariant (I := fun s => s.nodes.Sound)
    (fun s i o t hsound hstep =>
      (speakerStep_sublist (x := ⟨s, i, o, t⟩) (speakerStep_move hstep) hsound "").1)
    (fun peerId node hnode => by
      have hnone : (Speaker.start status : Speaker κ).nodes.lookup peerId = none :=
        Finmap.lookup_empty peerId
      rw [hnone] at hnode
      cases hnode)

/-- What the stream of a peer plays is what the engine has decoded of that
peer, in order, and all it writes into a buffer beside that is silence. -/
theorem speaker_fifo (h : SpeakerRun π samples status tr s) (peerId : String) :
    (tr.flatMap (heardPcm peerId) ++ (s.nodes.queued peerId ++ s.waiting peerId)).Sublist
        (tr.flatMap (sentPcm π samples peerId)) ∧
      ∀ x ∈ tr, ∀ slice, x.input = .process peerId slice →
        x.output = some (.filled (writtenBuffer slice (heardPcm peerId x))) := by
  constructor
  · refine Trace.snoc_induction (P := fun tr s =>
      (tr.flatMap (heardPcm peerId) ++ (s.nodes.queued peerId ++ s.waiting peerId)).Sublist
        (tr.flatMap (sentPcm π samples peerId))) ?_ ?_ h
    · have hnone : (Speaker.start status : Speaker κ).nodes.queued peerId = [] := by
        rw [PeerNodes.queued, Speaker.start, Finmap.lookup_empty]
        rfl
      rw [hnone]
      exact List.nil_sublist _
    · intro tr x hpre hstep ih
      obtain ⟨_, hsublist⟩ :=
        speakerStep_sublist (speakerStep_move hstep) (speakerRun_sound hpre) peerId
      rw [List.flatMap_append, List.flatMap_append, List.flatMap_singleton, List.flatMap_singleton,
        List.append_assoc]
      refine (hsublist.append_left _).trans ?_
      rw [← List.append_assoc]
      exact ih.append_right _
  · intro x hx slice hinput
    obtain ⟨pre, post, rfl⟩ := List.append_of_mem hx
    obtain ⟨hpre, hstep, _⟩ := h.split
    have hmove := speakerStep_move hstep
    cases hmove with
    | engine e pcm playback hother => rw [hinput] at hother; cases hother
    | take streamError command hother => rw [hinput] at hother; cases hother
    | process other slice' node hother hnode houtput hafter =>
      rw [hinput] at hother
      cases hother
      have hlock := speakerRun_sound hpre peerId node hnode
      have hplays := (callback_playsOldest (x := callbackOf node slice) hlock rfl rfl).1
      have hnodes : x.after.nodes =
          x.before.nodes.insert peerId { node with lock := (node.lock.fillOutputBuffer slice).2 } := by
        rw [hafter]
      rw [houtput, heardPcm_callback hinput hnode hnodes]
      rcases hplays with ⟨hfilled, hnone, _⟩ | ⟨hfilled, _⟩
      · rw [hnone]
        exact congrArg some hfilled
      · exact congrArg some hfilled

end

/-- Whether the output of a peer is registered after a command; a second
registration is wrong, and so is a frame without one. -/
def announce (peerId : String) (registered : Bool) : BackendCommand UInt32 → Option Bool
  | .registerPeerOutput peerId' _ _ =>
    if peerId' = peerId then if registered then none else some true else some registered
  | .removePeerOutput peerId' => some (if peerId' = peerId then false else registered)
  | .pushPeerPcm peerId' _ => if peerId' = peerId ∧ registered = false then none else some registered

/-- The commands in the channel take the output of a peer from a state to the
one the engine believes it to be in. -/
def Speaker.Announced (s : Speaker κ) (peerId : String) (registered : Bool) : Prop :=
  s.channel.foldlM (announce peerId) registered = some (decide (peerId ∈ s.registered))

section

variable {π : Profile} {samples : κ.Pcm → List UInt32} {status : DaemonStatus} {s s' : Speaker κ}
  {tr pre post : List (SpeakerTransition κ)} {x : SpeakerTransition κ} {peerId : String}
  {registered : Bool}

theorem Speaker.Announced.sendFrame (h : s.Announced peerId registered)
    (frame : String × List UInt32) : (s.sendFrame status frame).Announced peerId registered := by
  rw [Announced, Speaker.sendFrame, List.foldlM_append, List.foldlM_append, h]
  by_cases heq : frame.1 = peerId
  · subst heq
    by_cases hmem : frame.1 ∈ s.registered
    · simp [announce, hmem]
    · simp [announce, hmem]
  · have hsame : (peerId ∈ insert frame.1 s.registered) = (peerId ∈ s.registered) := by
      rw [Finset.mem_insert, or_iff_right (Ne.symm heq)]
    split_ifs <;> simp [announce, heq, hsame]

theorem Speaker.Announced.sendFrames (h : s.Announced peerId registered)
    (frames : List (String × List UInt32)) :
    (frames.foldl (Speaker.sendFrame status) s).Announced peerId registered := by
  induction frames generalizing s with
  | nil => exact h
  | cons frame frames ih => exact ih (h.sendFrame frame)

theorem Speaker.Announced.sendRemove (h : s.Announced peerId registered) (removed : String) :
    (s.sendRemove removed).Announced peerId registered := by
  rw [Announced, Speaker.sendRemove, List.foldlM_append, h]
  by_cases heq : removed = peerId
  · simp [announce, heq]
  · simp [announce, heq, Ne.symm heq]

theorem Speaker.Announced.send (h : s.Announced peerId registered) (status : DaemonStatus)
    (frames : List (String × List UInt32)) (e : PlaybackEvent κ) :
    (s.send status frames e).Announced peerId registered := by
  rcases send_cases s status frames e with ⟨removed, _, hsend | hsend⟩ | hsend
  · rw [hsend]
    exact h.sendRemove removed
  · rw [hsend]
    exact h
  · rw [hsend]
    exact h.sendFrames frames

/-- A command that is taken is one that is due. -/
theorem Speaker.Announced.take {command : BackendCommand UInt32} (h : s.Announced peerId registered)
    (hchannel : s.channel = command :: s'.channel) (hregistered : s'.registered = s.registered) :
    ∃ registered', announce peerId registered command = some registered' ∧
      s'.Announced peerId registered' := by
  rw [Announced, hchannel, List.foldlM_cons] at h
  cases hnext : announce peerId registered command with
  | none => rw [hnext] at h; cases h
  | some registered' =>
    rw [hnext] at h
    exact ⟨registered', rfl, by rw [Announced, hregistered]; exact h⟩

theorem announce_of_ne {command : BackendCommand UInt32} (h : command.peerId ≠ peerId) :
    announce peerId registered command = some registered := by
  cases command with
  | registerPeerOutput peerId' outputBus displayName => exact if_neg h
  | removePeerOutput peerId' => exact congrArg some (if_neg h)
  | pushPeerPcm peerId' pcm => exact if_neg fun hlost => h hlost.1

/-- A node comes with a registration, if its stream starts, and only then. -/
theorem announced_handleCommand {nodes : PeerNodes} {command : BackendCommand UInt32}
    {registered' : Bool} (streamError : Option String)
    (h : announce peerId registered command = some registered') :
    let nodes' := (nodes.handleCommand streamError command).2
    (((nodes.lookup peerId).isSome → registered = true) →
        (nodes'.lookup peerId).isSome → registered' = true) ∧
      (streamError = none → (nodes.lookup peerId).isSome = registered →
        (nodes'.lookup peerId).isSome = registered') := by
  by_cases heq : command.peerId = peerId
  · cases command with
    | registerPeerOutput peerId' outputBus displayName =>
      obtain rfl : peerId' = peerId := heq
      rw [announce, if_pos rfl] at h
      cases registered with
      | true => cases h
      | false =>
        refine ⟨fun _ _ => (Option.some.inj h).symm, fun hstarted hnode => ?_⟩
        dsimp only [PeerNodes.handleCommand]
        rcases PeerNodes.ensurePeerNode_cases nodes streamError peerId' displayName with
          ⟨hsome, _⟩ | ⟨message, hfailed, _⟩ | ⟨_, hnew⟩
        · rw [hnode] at hsome
          cases hsome
        · rw [hstarted] at hfailed
          cases hfailed
        · rw [hnew, Finmap.lookup_insert]
          exact Option.some.inj h
    | removePeerOutput peerId' =>
      obtain rfl : peerId' = peerId := heq
      rw [announce, if_pos rfl] at h
      dsimp only [PeerNodes.handleCommand]
      rw [Finmap.lookup_erase]
      exact ⟨fun _ => nofun, fun _ _ => Option.some.inj h⟩
    | pushPeerPcm peerId' pcm =>
      obtain rfl : peerId' = peerId := heq
      rw [announce] at h
      split_ifs at h with hlost
      have hsame : ((nodes.handleCommand streamError (.pushPeerPcm peerId' pcm)).2.lookup
          peerId').isSome = (nodes.lookup peerId').isSome := by
        rw [PeerNodes.handleCommand]
        cases hnode : nodes.lookup peerId' with
        | none => rw [hnode]
        | some node => rw [Finmap.lookup_insert]; rfl
      dsimp only
      rw [hsame, ← Option.some.inj h]
      exact ⟨id, fun _ => id⟩
  · rw [announce_of_ne heq] at h
    dsimp only
    rw [PeerNodes.lookup_handleCommand_of_ne streamError heq, ← Option.some.inj h]
    exact ⟨id, fun _ => id⟩

theorem announced_step (hmove : SpeakerMove π samples x) (hstarted : ∀ m, x.input ≠ .take (some m))
    (h : x.before.Announced peerId (x.before.nodes.lookup peerId).isSome) :
    x.after.Announced peerId (x.after.nodes.lookup peerId).isSome := by
  cases hmove with
  | engine e pcm playback hinput hstep hafter =>
    have hsent := h.send x.before.playback.status (pcm.map fun frame => (frame.1, samples frame.2)) e
    rw [hafter]
    dsimp only
    rw [send_nodes]
    exact hsent
  | take streamError command hinput hchannel hafter =>
    have hnone : streamError = none := by
      cases streamError with
      | none => rfl
      | some m => exact absurd hinput (hstarted m)
    have hregistered : x.after.registered = x.before.registered := by rw [hafter]
    obtain ⟨registered', hnext, hrest⟩ := h.take hchannel hregistered
    have hnodes : x.after.nodes = (x.before.nodes.handleCommand none command).2 := by
      rw [hafter, hnone]
    rw [hnodes, (announced_handleCommand none hnext).2 rfl rfl]
    exact hrest
  | process other slice node hinput hnode houtput hafter =>
    have hsame : (x.after.nodes.lookup peerId).isSome = (x.before.nodes.lookup peerId).isSome := by
      rw [hafter]
      dsimp only
      rw [lookup_insert_eq]
      split_ifs with heq
      · rw [heq, hnode]
        rfl
      · rfl
    rw [hsame, hafter]
    exact h

/-- As long as the streams start, every frame finds the node of its peer, and
only what overflows is lost. -/
theorem speaker_frames_arrive (h : SpeakerRun π samples status tr s)
    (hstarted : ∀ x ∈ tr, ∀ m, x.input ≠ .take (some m)) :
    ∀ x ∈ tr, ∀ peerId pcm, x.input = .take none →
      x.before.channel = .pushPeerPcm peerId pcm :: x.after.channel →
      (x.before.nodes.lookup peerId).isSome ∧ x.after.nodes.queued peerId =
        (x.before.nodes.queued peerId ++ pcm).drop
          ((x.before.nodes.queued peerId ++ pcm).length - maxQueuedSamples) := by
  intro x hx peerId pcm hinput hchannel
  obtain ⟨pre, post, rfl⟩ := List.append_of_mem hx
  obtain ⟨hpre, hstep, _⟩ := h.split
  have hannounced : x.before.Announced peerId (x.before.nodes.lookup peerId).isSome := by
    refine hpre.invariant_on (I := fun s => s.Announced peerId (s.nodes.lookup peerId).isSome)
      (Q := fun x => ∀ m, x.input ≠ .take (some m))
      (fun y hy hi hs => announced_step (speakerStep_move hs) hy hi)
      (fun y hy => hstarted y (List.mem_append_left _ hy)) ?_
    have hnone : (Speaker.start status : Speaker κ).nodes.lookup peerId = none :=
      Finmap.lookup_empty peerId
    rw [hnone]
    rfl
  have hmove := speakerStep_move hstep
  cases hmove with
  | engine e pcm' playback hother => rw [hinput] at hother; cases hother
  | process other slice node hother => rw [hinput] at hother; cases hother
  | take streamError command hother hcommand hafter =>
    rw [hinput] at hother
    cases hother
    rw [hchannel] at hcommand
    obtain ⟨rfl, _⟩ := List.cons.inj hcommand
    have hregistered : x.after.registered = x.before.registered := by rw [hafter]
    obtain ⟨registered', hnext, _⟩ := hannounced.take hchannel hregistered
    cases hnode : x.before.nodes.lookup peerId with
    | none => rw [hnode] at hnext; simp [announce] at hnext
    | some node =>
      have hlock := speakerRun_sound hpre peerId node hnode
      have hqueued : x.before.nodes.queued peerId = node.lock.queue.samples := by
        rw [PeerNodes.queued, hnode]
        rfl
      refine ⟨rfl, ?_⟩
      have hnodes : x.after.nodes = x.before.nodes.insert peerId
          { node with lock := (node.lock.pushPeerPcm pcm).2 } := by
        rw [hafter, PeerNodes.handleCommand, hnode]
      rw [hnodes, PeerNodes.queued_insert, if_pos rfl, hqueued, ← trimOldest_eq,
        PeerQueueLock.pushPeerPcm, hlock]
      rfl

/-- The node of a peer, whatever became of streams, was announced. -/
theorem announced_run (h : SpeakerRun π samples status tr s) (peerId : String) :
    ∃ registered, s.Announced peerId registered ∧
      ((s.nodes.lookup peerId).isSome → registered = true) := by
  refine h.invariant (I := fun s => ∃ registered, s.Announced peerId registered ∧
    ((s.nodes.lookup peerId).isSome → registered = true)) ?_ ⟨false, rfl, fun hsome => ?_⟩
  · rintro s i o t ⟨registered, hannounced, hnode⟩ hstep
    have hmove := speakerStep_move (x := ⟨s, i, o, t⟩) hstep
    cases hmove with
    | engine e pcm playback hinput hsteps hafter =>
      dsimp only at hafter hannounced
      refine ⟨registered, ?_, ?_⟩
      · rw [hafter]
        exact hannounced.send _ _ _
      · rw [hafter]
        dsimp only
        rw [send_nodes]
        exact hnode
    | take streamError command hinput hchannel hafter =>
      dsimp only at hafter hchannel
      have hregistered : t.registered = s.registered := by rw [hafter]
      obtain ⟨registered', hnext, hrest⟩ := hannounced.take hchannel hregistered
      refine ⟨registered', hrest, fun hsome => (announced_handleCommand streamError hnext).1 hnode ?_⟩
      rw [hafter] at hsome
      exact hsome
    | process other slice node hinput hother houtput hafter =>
      dsimp only at hafter hother
      refine ⟨registered, by rw [hafter]; exact hannounced, fun hsome => hnode ?_⟩
      rw [hafter] at hsome
      dsimp only at hsome
      rw [lookup_insert_eq] at hsome
      split_ifs at hsome with heq
      · rw [heq, hother]
        rfl
      · exact hsome
  · rw [Speaker.start, Finmap.lookup_empty] at hsome
    cases hsome

/-- The engine takes the output of a peer for registered, and there is no node. -/
structure Speaker.Deaf (s : Speaker κ) (peerId : String) : Prop where
  announced : s.Announced peerId true
  kept : BackendCommand.removePeerOutput peerId ∉ s.channel
  node : s.nodes.lookup peerId = none

theorem sendFrames_remove {removed : String} (frames : List (String × List UInt32)) (s : Speaker κ) :
    BackendCommand.removePeerOutput removed ∈ (frames.foldl (Speaker.sendFrame status) s).channel ↔
      BackendCommand.removePeerOutput removed ∈ s.channel := by
  induction frames generalizing s with
  | nil => rfl
  | cons frame frames ih =>
    rw [List.foldl_cons, ih, Speaker.sendFrame]
    split_ifs <;> simp

theorem Speaker.Deaf.step (h : x.before.Deaf peerId) (hmove : SpeakerMove π samples x)
    (hkept : x.input ≠ .engine (.command (.disconnectPeer peerId))) :
    x.after.Deaf peerId ∧ heardPcm peerId x = [] := by
  cases hmove with
  | engine e pcm playback hinput hstep hafter =>
    have hnode : x.after.nodes.lookup peerId = none := by
      rw [hafter]
      dsimp only
      rw [send_nodes]
      exact h.node
    have hremove : BackendCommand.removePeerOutput peerId ∉ x.after.channel := by
      rw [hafter]
      dsimp only
      rcases send_cases x.before x.before.playback.status
        (pcm.map fun frame => (frame.1, samples frame.2)) e with ⟨removed, rfl, hsend | hsend⟩ | hsend
      · have hne : removed ≠ peerId := fun heq => hkept (heq ▸ hinput)
        rw [hsend, Speaker.sendRemove]
        simp [h.kept, Ne.symm hne]
      · rw [hsend]
        exact h.kept
      · rw [hsend, sendFrames_remove]
        exact h.kept
    refine ⟨⟨?_, hremove, hnode⟩, by rw [heardPcm, hinput]⟩
    rw [hafter]
    exact h.announced.send _ _ _
  | take streamError command hinput hchannel hafter =>
    have hregistered : x.after.registered = x.before.registered := by rw [hafter]
    obtain ⟨registered', hnext, hrest⟩ := h.announced.take hchannel hregistered
    have hkept' : command ≠ .removePeerOutput peerId ∧
        BackendCommand.removePeerOutput peerId ∉ x.after.channel := by
      have hall := h.kept
      rw [hchannel, List.mem_cons, not_or] at hall
      exact ⟨Ne.symm hall.1, hall.2⟩
    have hnodes : x.after.nodes = (x.before.nodes.handleCommand streamError command).2 := by
      rw [hafter]
    have hpush : registered' = true ∧ (x.before.nodes.handleCommand streamError command).2.lookup peerId =
        none := by
      by_cases heq : command.peerId = peerId
      · cases command with
        | registerPeerOutput peerId' outputBus displayName =>
          obtain rfl : peerId' = peerId := heq
          simp [announce] at hnext
        | removePeerOutput peerId' =>
          obtain rfl : peerId' = peerId := heq
          exact absurd rfl hkept'.1
        | pushPeerPcm peerId' pcm =>
          obtain rfl : peerId' = peerId := heq
          rw [PeerNodes.handleCommand, h.node]
          simp only [announce, Bool.true_eq_false, and_false, if_false, Option.some.injEq] at hnext
          exact ⟨hnext.symm, h.node⟩
      · rw [announce_of_ne heq] at hnext
        exact ⟨(Option.some.inj hnext).symm,
          (PeerNodes.lookup_handleCommand_of_ne streamError heq).trans h.node⟩
    exact ⟨⟨hpush.1 ▸ hrest, hkept'.2, hnodes ▸ hpush.2⟩, by rw [heardPcm, hinput]⟩
  | process other slice node hinput hnode houtput hafter =>
    have hne : peerId ≠ other := by
      rintro rfl
      rw [h.node] at hnode
      cases hnode
    refine ⟨⟨by rw [hafter]; exact h.announced, by rw [hafter]; exact h.kept, ?_⟩, ?_⟩
    · rw [hafter]
      exact (Finmap.lookup_insert_of_ne _ hne).trans h.node
    · rw [heardPcm, hinput]
      exact if_neg (Ne.symm hne)

theorem Speaker.Deaf.run (h : s.Deaf peerId) (htrace : Trace (Speaker.step π samples) s post s')
    (hkept : ∀ y ∈ post, y.input ≠ .engine (.command (.disconnectPeer peerId))) :
    s'.nodes.lookup peerId = none ∧ post.flatMap (heardPcm peerId) = [] := by
  induction htrace with
  | nil => exact ⟨h.node, rfl⟩
  | @cons s m t i o tr hstep _ ih =>
    obtain ⟨hdeaf, hsilent⟩ := h.step (x := ⟨s, i, o, m⟩) (speakerStep_move hstep)
      (hkept _ List.mem_cons_self)
    obtain ⟨hnode, hrest⟩ := ih hdeaf fun y hy => hkept y (List.mem_cons_of_mem _ hy)
    exact ⟨hnode, by rw [List.flatMap_cons, hsilent, hrest, List.nil_append]⟩

/-- The output of a peer is not registered again after its stream has failed:
nothing of it is heard until it is disconnected. -/
theorem failed_output_silent {message outputBus displayName : String}
    (h : SpeakerRun π samples status (pre ++ x :: post) s) (hinput : x.input = .take (some message))
    (hchannel : x.before.channel = .registerPeerOutput peerId outputBus displayName :: x.after.channel)
    (hwaiting : BackendCommand.removePeerOutput peerId ∉ x.after.channel)
    (hkept : ∀ y ∈ post, y.input ≠ .engine (.command (.disconnectPeer peerId))) :
    s.nodes.lookup peerId = none ∧ post.flatMap (heardPcm peerId) = [] := by
  obtain ⟨hpre, hstep, hpost⟩ := h.split
  obtain ⟨registered, hannounced, hnode⟩ := announced_run hpre peerId
  have hmove := speakerStep_move hstep
  cases hmove with
  | engine e pcm playback hother => rw [hinput] at hother; cases hother
  | process other slice node hother => rw [hinput] at hother; cases hother
  | take streamError command hother hcommand hafter =>
    rw [hinput] at hother
    cases hother
    rw [hchannel] at hcommand
    obtain ⟨rfl, _⟩ := List.cons.inj hcommand
    have hregistered : x.after.registered = x.before.registered := by rw [hafter]
    obtain ⟨registered', hnext, hrest⟩ := hannounced.take hchannel hregistered
    rw [announce, if_pos rfl] at hnext
    split_ifs at hnext with hfalse
    have hgone : x.after.nodes.lookup peerId = none := by
      rw [hafter]
      dsimp only [PeerNodes.handleCommand]
      rcases PeerNodes.ensurePeerNode_cases x.before.nodes (some message) peerId displayName with
        ⟨hsome, _⟩ | ⟨_, _, herased⟩ | ⟨hnone, _⟩
      · exact absurd (hnode hsome) hfalse
      · rw [herased, Finmap.lookup_erase]
      · cases hnone
    exact Speaker.Deaf.run ⟨Option.some.inj hnext ▸ hrest, hwaiting, hgone⟩ hpost hkept

end

section

variable {π : Profile} {samples : κ.Pcm → List UInt32} {status : DaemonStatus} {s : Speaker κ}
  {peerId : String}

/-- Only a callback of its stream plays a peer. -/
theorem heardPcm_quiet {tr : List (SpeakerTransition κ)}
    (h : ∀ i ∈ tr.map Transition.input, ∀ slice, i ≠ .process peerId slice) :
    tr.flatMap (heardPcm peerId) = [] := by
  rw [List.flatMap_eq_nil_iff]
  intro x hx
  unfold heardPcm
  split
  · next other slice hinput =>
    refine if_neg fun hsame => h _ (List.mem_map_of_mem hx) slice ?_
    rw [hinput, hsame]
  · rfl

theorem sendFrames_registered {frames : List (String × List UInt32)}
    (h : ∀ frame ∈ frames, frame.1 ∈ s.registered) : frames.foldl (Speaker.sendFrame status) s =
      { s with channel := s.channel ++ frames.map fun frame => .pushPeerPcm frame.1 frame.2 } := by
  induction frames generalizing s with
  | nil => simp
  | cons frame frames ih =>
    have hregistered := h frame List.mem_cons_self
    have hsend : s.sendFrame status frame =
        { s with channel := s.channel ++ [.pushPeerPcm frame.1 frame.2] } := by
      simp only [Speaker.sendFrame, hregistered, if_true, List.append_nil,
        Finset.insert_eq_of_mem]
    have hrest := ih (s := s.sendFrame status frame)
    rw [hsend] at hrest
    rw [List.foldl_cons, hsend, hrest fun other hother => h other (List.mem_cons_of_mem _ hother)]
    simp

variable (samples) in
/-- The frames that an engine plays for registered peers all go into the
channel. -/
theorem engine_frames {ptr : List (PlaybackTransition κ)} {playback : PlaybackState κ}
    (h : Trace (PlaybackState.step π) s.playback ptr playback)
    (hkept : ∀ y ∈ ptr, ∀ removed, y.input ≠ .command (.disconnectPeer removed))
    (hknown : ∀ y ∈ ptr, ∀ frame ∈ y.output, frame.1 ∈ s.registered) :
    ∃ tr, tr.map Transition.input = ptr.map (fun y => .engine y.input) ∧
      Trace (Speaker.step π samples) s tr { s with
        playback := playback
        channel := s.channel ++ (ptr.flatMap Transition.output).map fun frame =>
          .pushPeerPcm frame.1 (samples frame.2) } := by
  generalize hstart : s.playback = start at h
  induction h generalizing s with
  | nil start =>
    subst hstart
    exact ⟨[], rfl, by simpa using .nil s⟩
  | @cons start next last e pcm ptr hstep _ ih =>
    subst hstart
    let frames := pcm.map fun frame => (frame.1, samples frame.2)
    let sent : Speaker κ := { s with
      playback := next
      channel := s.channel ++ frames.map fun frame => .pushPeerPcm frame.1 frame.2 }
    have hframes : ∀ frame ∈ frames, frame.1 ∈ s.registered := by
      intro frame hframe
      obtain ⟨played, hplayed, rfl⟩ := List.mem_map.mp hframe
      exact hknown _ List.mem_cons_self played hplayed
    have hsend : s.send s.playback.status frames e =
        { s with channel := s.channel ++ frames.map fun frame => .pushPeerPcm frame.1 frame.2 } := by
      rw [← sendFrames_registered hframes]
      rcases send_cases s s.playback.status frames e with ⟨removed, he, _⟩ | hfold
      · exact absurd he (hkept _ List.mem_cons_self removed)
      · exact hfold
    have hfirst : s.step π samples (.engine e) = some (none, sent) := by
      simp only [Speaker.step, hstep, frames, sent] at hsend ⊢
      rw [hsend]
    obtain ⟨tr, hinputs, htrace⟩ := ih (s := sent)
      (fun y hy => hkept y (List.mem_cons_of_mem _ hy))
      (fun y hy => hknown y (List.mem_cons_of_mem _ hy)) rfl
    refine ⟨⟨s, .engine e, none, sent⟩ :: tr, ?_, ?_⟩
    · rw [List.map_cons, hinputs]
      rfl
    · have hall := Trace.cons hfirst htrace
      simpa [frames, sent, List.map_map, Function.comp_def] using hall

variable (π samples) in
/-- Frames that find their node are queued, the newest half second of them. -/
theorem take_frames {node : PeerNode} {frames : List (List UInt32)}
    (hchannel : s.channel = frames.map (.pushPeerPcm peerId))
    (hnode : s.nodes.lookup peerId = some node) (hsound : node.lock.poisoned = false)
    (hfits : node.lock.queue.samples.length ≤ maxQueuedSamples) :
    ∃ tr s', tr.map Transition.input = List.replicate frames.length (.take none) ∧
      Trace (Speaker.step π samples) s tr s' ∧
      s'.nodes.lookup peerId = some { node with
        lock := node.lock.withSamples
          (trimOldest (node.lock.queue.samples ++ frames.flatten)) } := by
  induction frames generalizing s node with
  | nil =>
    refine ⟨[], s, rfl, .nil s, ?_⟩
    rw [hnode, List.flatten_nil, List.append_nil, trimOldest_eq, Nat.sub_eq_zero_of_le hfits,
      List.drop_zero]
    rfl
  | cons pcm frames ih =>
    let queue := trimOldest (node.lock.queue.samples ++ pcm)
    let s' : Speaker κ := { s with
      channel := frames.map (.pushPeerPcm peerId)
      nodes := s.nodes.insert peerId { node with lock := node.lock.withSamples queue } }
    have hstep : s.step π samples (.take none) = some (some .queued, s') := by
      simp only [Speaker.step, hchannel, List.map_cons, PeerNodes.handleCommand, hnode,
        PeerQueueLock.pushPeerPcm_sound hsound]
      rfl
    have hnode' : s'.nodes.lookup peerId =
        some { node with lock := node.lock.withSamples queue } := Finmap.lookup_insert _
    obtain ⟨tr, t, hinputs, htrace, hlast⟩ := ih (s := s') rfl hnode' hsound (trimOldest_length _)
    refine ⟨⟨s, .take none, some .queued, s'⟩ :: tr, t, ?_, .cons hstep htrace, ?_⟩
    · rw [List.map_cons, hinputs]
      rfl
    · have hqueue : trimOldest (queue ++ frames.flatten) =
          trimOldest (node.lock.queue.samples ++ (pcm ++ frames.flatten)) := by
        rw [trimOldest_append, List.append_assoc]
      rw [hlast, List.flatten_cons, ← hqueue]
      rfl

end

/-- Three frames of a peer, which the engine then plays. -/
def playedThree : List (SpeakerEvent silentCodec) :=
  [.engine (peerFrame 1 0 [7]), .engine (peerFrame 2 960 [8]), .engine (peerFrame 3 1920 [9]),
    .engine (.playout (millis 100) ["p"])]

def payloadSamples (pcm : silentCodec.Pcm) : List UInt32 := List.map UInt8.toUInt32 pcm

def speakerRun (events : List (SpeakerEvent silentCodec)) :
    Option (List (SpeakerTransition silentCodec) × Speaker silentCodec) :=
  execute (Speaker.step .release payloadSamples) (.start (DaemonStatus.fresh "local")) events

/-- A decoded frame, all its samples the same. -/
def frameBytes (pcm : silentCodec.Pcm) : List UInt32 :=
  List.flatMap (fun byte => List.replicate frameSamples byte.toUInt32) pcm

theorem frameBytes_length (byte : UInt8) : (frameBytes [byte]).length = frameSamples := by
  simp [frameBytes]

/-- A frame and the tick that plays it. -/
def spoken (n : Nat) : List (PlaybackEvent silentCodec) :=
  [peerFrame (UInt64.ofNat (n + 1)) (UInt64.ofNat (frameSamples * n)) [UInt8.ofNat n],
    .playout (millis (60 + 20 * n)) ["p"]]

instance : DecidableEq silentCodec.Pcm := inferInstanceAs (DecidableEq (List UInt8))

def decodedFrame (n : Nat) : String × silentCodec.Pcm := ("p", [UInt8.ofNat n])

/-- The first three frames are played at once, and the first comes to its node.
The engine then plays more than half a second. -/
def spokenOn : Option ((List (SpeakerTransition silentCodec) × Speaker silentCodec) ×
    List (PlaybackTransition silentCodec) × PlaybackState silentCodec) :=
  (execute (Speaker.step .release frameBytes) (.start (DaemonStatus.fresh "local"))
    (((List.range 3).flatMap spoken).map .engine ++ [.take none, .take none])).bind fun first =>
      (execute (PlaybackState.step .release) first.2.playback
        ((List.range' 3 23).flatMap spoken)).map fun rest => (first, rest)

theorem spokenOn_seen : (spokenOn.map fun r =>
    (r.1.2.channel = [1, 2].map (fun byte => .pushPeerPcm "p" (frameBytes [byte])) ∧
      "p" ∈ r.1.2.registered ∧
      (r.1.2.nodes.lookup "p").map PeerNode.lock =
        some (PeerQueueLock.registered.withSamples (List.replicate frameSamples 0)) ∧
      r.2.1.flatMap Transition.output = (List.range' 3 23).map decodedFrame : Bool)) =
    some true := by
  decide +kernel

def spokenFrames : List (List UInt32) :=
  (List.range' 1 25).map fun n => frameBytes (decodedFrame n).2

theorem spokenFrames_length : spokenFrames.flatten.length = maxQueuedSamples := by
  have hframe : (List.length ∘ fun n => frameBytes (decodedFrame n).2) = fun _ => frameSamples :=
    funext fun _ => frameBytes_length _
  rw [List.length_flatten, spokenFrames, List.map_map, hframe]
  decide

/-- The queue after the frames, and after the first of their samples. -/
def spokenQueue : PeerQueueLock := PeerQueueLock.registered.withSamples spokenFrames.flatten

theorem spokenQueue_plays : spokenFrames.flatten = 1 :: spokenFrames.flatten.tail ∧
    ∃ lock, spokenQueue.fillOutputBuffer [9, 9, 9, 9, 9, 9] =
      (.filled [1, 0, 0, 0, 9, 9], lock) ∧ lock.queue.samples = spokenFrames.flatten.tail := by
  have hready : minPrerollSamples ≤ spokenQueue.queue.samples.length := by
    have hlength : spokenQueue.queue.samples.length = maxQueuedSamples := spokenFrames_length
    rw [hlength]
    decide
  have hfirst : spokenFrames.flatten = 1 :: spokenFrames.flatten.tail := rfl
  refine ⟨hfirst, _, PeerQueueLock.fillOutputBuffer_ready rfl hready _, ?_⟩
  exact List.drop_one

theorem spokenOn_runs : ∃ (tr : List (SpeakerTransition silentCodec)) (s : Speaker silentCodec)
    (node : PeerNode), SpeakerRun .release frameBytes (DaemonStatus.fresh "local") tr s ∧
      tr.flatMap (heardPcm "p") = [] ∧
      s.nodes.lookup "p" = some { node with lock := spokenQueue } := by
  obtain ⟨⟨⟨pre, s⟩, ptr, playback⟩, hspoken, hseen⟩ := Option.map_eq_some_iff.mp spokenOn_seen
  obtain ⟨hchannel, hregistered, hlock, hplayed⟩ := of_decide_eq_true hseen
  obtain ⟨first, hfirst, hrest⟩ := Option.bind_eq_some_iff.mp hspoken
  obtain ⟨rest, hrest, heq⟩ := Option.map_eq_some_iff.mp hrest
  cases heq
  dsimp only at hchannel hregistered hlock hplayed hrest
  have hevents : ∀ y ∈ ptr, ∃ n, y.input ∈ spoken n := by
    intro y hy
    have hinput := List.mem_map_of_mem (f := Transition.input) hy
    rw [execute_inputs hrest] at hinput
    obtain ⟨n, _, hn⟩ := List.mem_flatMap.mp hinput
    exact ⟨n, hn⟩
  have hknown : ∀ y ∈ ptr, ∀ frame ∈ y.output, frame.1 ∈ s.registered := by
    intro y hy frame hframe
    have hmem : frame ∈ ptr.flatMap Transition.output := List.mem_flatMap.mpr ⟨y, hy, hframe⟩
    rw [hplayed] at hmem
    obtain ⟨n, _, rfl⟩ := List.mem_map.mp hmem
    exact hregistered
  have hkept : ∀ y ∈ ptr, ∀ removed, y.input ≠ .command (.disconnectPeer removed) := by
    intro y hy removed hremoved
    obtain ⟨n, hn⟩ := hevents y hy
    rw [hremoved] at hn
    simp [spoken, peerFrame] at hn
  obtain ⟨mid, hmid, htrace⟩ := engine_frames frameBytes (execute_trace hrest) hkept hknown
  obtain ⟨node, hnode, hqueue⟩ := Option.map_eq_some_iff.mp hlock
  have hfirstFrame : node.lock.queue.samples.length = frameSamples := by
    rw [hqueue]
    exact List.length_replicate
  rw [hchannel, hplayed] at htrace
  obtain ⟨last, t, hlast, htaken, hqueued⟩ := take_frames .release frameBytes
    (s := { s with
      playback := playback
      channel := spokenFrames.map (.pushPeerPcm "p") })
    rfl hnode (by rw [hqueue]; rfl) (by rw [hfirstFrame]; decide)
  refine ⟨pre ++ (mid ++ last), t, node, ?_, heardPcm_quiet ?_, ?_⟩
  · exact Trace.append_iff.mpr ⟨s, execute_trace hfirst, Trace.append_iff.mpr ⟨_, htrace, htaken⟩⟩
  · rw [List.map_append, List.map_append, execute_inputs hfirst, hmid, hlast]
    intro i hi slice hslice
    rw [hslice] at hi
    simp at hi
  · rw [hqueued, hqueue, trimOldest_full spokenFrames_length]
    rfl

/-- The first frame is pushed out before the stream plays, which starts with the
second. -/
theorem speaker_fifo_spoken : ∃ (tr : List (SpeakerTransition silentCodec))
    (s : Speaker silentCodec), SpeakerRun .release frameBytes (DaemonStatus.fresh "local") tr s ∧
      tr.flatMap (heardPcm "p") = [1] ∧ s.nodes.queued "p" = spokenFrames.flatten.tail ∧
      (tr.flatMap (heardPcm "p") ++ (s.nodes.queued "p" ++ s.waiting "p")).Sublist
        (tr.flatMap (sentPcm .release frameBytes "p")) := by
  obtain ⟨tr, s, node, hrun, hsilent, hnode⟩ := spokenOn_runs
  obtain ⟨hfront, lock, hfill, hrest⟩ := spokenQueue_plays
  let x : SpeakerTransition silentCodec :=
    ⟨s, .process "p" [9, 9, 9, 9, 9, 9], some (.filled [1, 0, 0, 0, 9, 9]),
      { s with nodes := s.nodes.insert "p" { node with lock := lock } }⟩
  have hstep : s.step .release frameBytes x.input = some (x.output, x.after) := by
    simp only [x, Speaker.step, hnode, hfill]
  have hrun' : SpeakerRun .release frameBytes (DaemonStatus.fresh "local") (tr ++ [x]) x.after :=
    Trace.append_iff.mpr ⟨s, hrun, .cons hstep (.nil _)⟩
  have hqueued : x.after.nodes.queued "p" = spokenFrames.flatten.tail := by
    rw [PeerNodes.queued_insert, if_pos rfl]
    exact hrest
  have hplayed : heardPcm "p" x = [1] := by
    rw [heardPcm_callback (x := x) rfl hnode (by rw [hfill])]
    refine leavingSamples_eq ?_
    rw [callbackOf, hfill, pushedSamples, List.append_nil, hrest]
    exact hfront
  refine ⟨tr ++ [x], x.after, hrun', ?_, hqueued, (speaker_fifo hrun' "p").1⟩
  rw [List.flatMap_append, hsilent, List.flatMap_singleton, hplayed, List.nil_append]

theorem speaker_frames_arrive_playedThree : ∃ (tr : List (SpeakerTransition silentCodec))
    (s : Speaker silentCodec), speakerRun (playedThree ++ [.take none, .take none]) = some (tr, s) ∧
      ∀ x ∈ tr, ∀ peerId pcm, x.input = .take none →
        x.before.channel = .pushPeerPcm peerId pcm :: x.after.channel →
        (x.before.nodes.lookup peerId).isSome ∧ x.after.nodes.queued peerId =
          (x.before.nodes.queued peerId ++ pcm).drop
            ((x.before.nodes.queued peerId ++ pcm).length - maxQueuedSamples) := by
  have hrun : (speakerRun (playedThree ++ [.take none, .take none])).isSome = true := by
    decide +kernel
  obtain ⟨⟨tr, s⟩, hr⟩ := Option.isSome_iff_exists.mp hrun
  refine ⟨tr, s, hr, speaker_frames_arrive (execute_trace hr) fun x hx m hm => ?_⟩
  have hinput : x.input ∈ tr.map Transition.input := List.mem_map_of_mem hx
  rw [execute_inputs hr, hm] at hinput
  simp [playedThree, peerFrame] at hinput

/-- The stream of the peer fails; the second frame is taken for nothing. -/
def failedStream : Option (Speaker silentCodec × Speaker silentCodec × Speaker silentCodec) :=
  (speakerRun playedThree).bind fun r =>
    (r.2.step .release payloadSamples (.take (some "no server"))).bind fun q =>
      (q.2.step .release payloadSamples (.take none)).map fun t => (r.2, q.2, t.2)

theorem failed_output_silent_playedThree : ∃ (tr : List (SpeakerTransition silentCodec))
    (s : Speaker silentCodec), Trace (Speaker.step .release payloadSamples)
      (.start (DaemonStatus.fresh "local")) tr s ∧ s.waiting "p" = [8, 9] ∧
      s.nodes.lookup "p" = none := by
  have hrun : (failedStream.map fun r =>
      (r.1.channel = .registerPeerOutput "p" "peer_bus_p" "peer p" :: r.2.1.channel ∧
        BackendCommand.removePeerOutput "p" ∉ r.2.1.channel ∧ r.2.2.waiting "p" = [8, 9] : Bool)) =
      some true := by
    decide +kernel
  obtain ⟨⟨before, after, last⟩, hsteps, hseen⟩ := Option.map_eq_some_iff.mp hrun
  obtain ⟨hchannel, hremove, hwaiting⟩ := of_decide_eq_true hseen
  obtain ⟨⟨pre, _⟩, hpre, hrest⟩ := Option.bind_eq_some_iff.mp hsteps
  obtain ⟨⟨o, _⟩, hfail, hlast⟩ := Option.bind_eq_some_iff.mp hrest
  obtain ⟨⟨o', _⟩, htake, heq⟩ := Option.map_eq_some_iff.mp hlast
  cases heq
  have htrace := Trace.append_iff.mpr ⟨_, execute_trace hpre, .cons hfail (.cons htake (.nil _))⟩
  refine ⟨_, _, htrace, hwaiting, (failed_output_silent htrace rfl hchannel hremove ?_).1⟩
  intro y hy
  rw [List.mem_singleton.mp hy]
  nofun

end Voicers
