import Voicers.Lib.SortedMap
import Mathlib.Algebra.GroupWithZero.Nat

/-! The jitter buffer of a remote peer (`media/jitter.rs`): encoded packets
keyed by their sample timestamp, and the playout cursor that walks over them
one frame at a time. Timestamps are `u64`s, represented by their value; a
clock reading is a number of nanoseconds after the earliest representable
instant. -/

namespace Voicers

open Lib

def jitterTargetDepth : Nat := 3
def jitterMinDepth : Nat := 2
def jitterMaxTargetDepth : Nat := 6
def jitterMaxDepth : Nat := 8
def driftRebaseThresholdFrames : Nat := 4
def stablePlayoutTicksBeforeShrink : Nat := 50
def frameSamples : Nat := 960

def millis (n : Nat) : Nat := n * 1000000

def frameDuration : Nat := millis 20
def playoutLateGrace : Nat := millis 5

/-- The Cargo profile of a build. An overflowing `u64` operation panics in
the `dev` profile and wraps around in the `release` profile. -/
inductive Profile
  | dev
  | release
deriving DecidableEq

def u64Range : Nat := 2 ^ 64

/-- The machine result of a `u64` operation whose exact result is `exact`;
`none` is a panic. -/
def Profile.u64 (π : Profile) (exact : Nat) : Option Nat :=
  if exact < u64Range then some exact
  else match π with
    | .dev => none
    | .release => some (exact % u64Range)

structure EncodedPacket where
  timestampSamples : Nat
  payload : List UInt8
deriving DecidableEq

structure JitterBuffer where
  pending : SortedMap Nat EncodedPacket
  nextPlayoutTimestampSamples : Option Nat
  nextPlayoutDeadline : Option Nat
  targetDepth : Nat
  stablePlayoutTicks : Nat
  latePackets : Nat
  lostPackets : Nat
  concealedFrames : Nat
  driftCorrections : Nat
deriving DecidableEq

inductive PlayoutDecision
  | hold
  | packet (packet : EncodedPacket)
  | fec (recoveryPacket : List UInt8)
  | conceal
deriving DecidableEq

namespace JitterBuffer

def new : JitterBuffer where
  pending := SortedMap.empty
  nextPlayoutTimestampSamples := none
  nextPlayoutDeadline := none
  targetDepth := jitterTargetDepth
  stablePlayoutTicks := 0
  latePackets := 0
  lostPackets := 0
  concealedFrames := 0
  driftCorrections := 0

def queueDepth (b : JitterBuffer) : Nat := b.pending.length

def queuedSamples (b : JitterBuffer) : Nat := b.pending.length * frameSamples

def raiseTargetDepth (b : JitterBuffer) : JitterBuffer :=
  { b with
    targetDepth := min (b.targetDepth + 1) jitterMaxTargetDepth
    stablePlayoutTicks := 0 }

def noteStableTick (b : JitterBuffer) : JitterBuffer :=
  if b.pending.length ≤ b.targetDepth then { b with stablePlayoutTicks := 0 }
  else if stablePlayoutTicksBeforeShrink ≤ b.stablePlayoutTicks + 1 then
    { b with
      targetDepth := max (b.targetDepth - 1) jitterMinDepth
      stablePlayoutTicks := 0 }
  else { b with stablePlayoutTicks := b.stablePlayoutTicks + 1 }

def advancePlayoutClock (π : Profile) (b : JitterBuffer) (deadline : Nat) (expected : Nat) :
    Option JitterBuffer := do
  let next ← π.u64 (expected + frameSamples)
  return { b with
    nextPlayoutTimestampSamples := some next
    nextPlayoutDeadline := some (deadline + frameDuration) }

def isLate (b : JitterBuffer) (packet : EncodedPacket) : Bool :=
  match b.nextPlayoutTimestampSamples with
  | some nextPlayout => packet.timestampSamples < nextPlayout
  | none => false

/-- The overflow loop of `insert`: it removes one packet in each round, so
the number of pending packets is enough fuel. -/
def evictOverflow : Nat → JitterBuffer → JitterBuffer
  | 0, b => b
  | fuel + 1, b =>
    if jitterMaxDepth < b.pending.length then
      match b.pending.first? with
      | none => b
      | some (oldest, _) =>
        if some oldest = b.nextPlayoutTimestampSamples then b
        else evictOverflow fuel
          { b with
            pending := b.pending.erase oldest
            driftCorrections := b.driftCorrections + 1 }
    else b

/-- `pending.entry(timestamp).or_insert(packet)`. -/
def store (b : JitterBuffer) (packet : EncodedPacket) : JitterBuffer :=
  { b with pending := b.pending.insertNew packet.timestampSamples packet }

def insert (b : JitterBuffer) (packet : EncodedPacket) : JitterBuffer :=
  if b.isLate packet then
    { b with latePackets := b.latePackets + 1 }.raiseTargetDepth
  else evictOverflow (b.store packet).pending.length (b.store packet)

/-- The first part of `next_playout_decision`, taken when there is no cursor
and enough packets are pending: the cursor is set on the oldest packet and
the deadline early enough to release the startup lead at once. -/
def prime (b : JitterBuffer) (now : Nat) : JitterBuffer :=
  let startupOffset := frameDuration * (b.targetDepth - 1)
  { b with
    nextPlayoutTimestampSamples := b.pending.first?.map Prod.fst
    nextPlayoutDeadline := some (if startupOffset ≤ now then now - startupOffset else now)
    stablePlayoutTicks := 0 }

/-- The gap check: a cursor too far behind the oldest packet jumps to it. -/
def rebase (π : Profile) (b : JitterBuffer) (now : Nat) (expected : Nat) :
    Option JitterBuffer :=
  match b.pending.first? with
  | none => some b
  | some (earliest, _) => do
    let limit ← π.u64 (expected + frameSamples * driftRebaseThresholdFrames)
    return if limit < earliest then
      { b with
        nextPlayoutTimestampSamples := some earliest
        nextPlayoutDeadline := some now
        driftCorrections := b.driftCorrections + 1 }
    else b

/-- The last part of `next_playout_decision`, for the slot at `expected`. The
deadline is the one read before the gap check. -/
def playSlot (π : Profile) (b : JitterBuffer) (now deadline : Nat) (expected : Nat) :
    Option (PlayoutDecision × JitterBuffer) :=
  match b.pending.get? expected with
  | some packet => do
    let b ← { b with pending := b.pending.erase expected }.advancePlayoutClock π deadline expected
    return (.packet packet, b.noteStableTick)
  | none =>
    if now < deadline + playoutLateGrace then some (.hold, b)
    else if b.pending.length < b.targetDepth then
      some (.hold,
        { b with
          nextPlayoutTimestampSamples := none
          nextPlayoutDeadline := none
          stablePlayoutTicks := 0 })
    else do
      let ahead ← π.u64 (expected + frameSamples)
      let advanced ← b.advancePlayoutClock π deadline expected
      let concealed := { advanced with
        concealedFrames := advanced.concealedFrames + 1
        lostPackets := advanced.lostPackets + 1 }.raiseTargetDepth
      match b.pending.get? ahead with
      | some packet => return (.fec packet.payload, concealed)
      | none => return (.conceal, concealed)

/-- `next_playout_decision` once a cursor has been set. The two `none`s are
its `expect`s. -/
def playDue (π : Profile) (b : JitterBuffer) (now : Nat) :
    Option (PlayoutDecision × JitterBuffer) :=
  match b.nextPlayoutDeadline with
  | none => some (.hold, b)
  | some deadline =>
    if now < deadline then some (.hold, b)
    else
      match b.nextPlayoutTimestampSamples with
      | none => none
      | some expected => do
        let b ← b.rebase π now expected
        match b.nextPlayoutTimestampSamples with
        | none => none
        | some expected => b.playSlot π now deadline expected

def nextPlayoutDecision (π : Profile) (b : JitterBuffer) (now : Nat) :
    Option (PlayoutDecision × JitterBuffer) :=
  match b.nextPlayoutTimestampSamples with
  | none =>
    if b.pending.length < b.targetDepth then some (.hold, b)
    else (b.prime now).playDue π now
  | some _ => b.playDue π now

end JitterBuffer

inductive JitterOp
  | insert (packet : EncodedPacket)
  | nextPlayoutDecision (now : Nat)
deriving DecidableEq

/-- One call and what it answers; only decisions answer anything. -/
def JitterBuffer.call (π : Profile) (b : JitterBuffer) :
    JitterOp → Option (Option PlayoutDecision × JitterBuffer)
  | .insert packet => some (none, b.insert packet)
  | .nextPlayoutDecision now =>
    (b.nextPlayoutDecision π now).map (fun r => (some r.1, r.2))

end Voicers
