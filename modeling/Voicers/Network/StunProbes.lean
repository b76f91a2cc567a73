import Voicers.Network.StunPrefix

/-! What a STUN probe sends, and which datagrams it takes for the answer
(`network/stun.rs`). The id of a probe is made of the clock and the process id. -/

namespace Voicers

open Lib

/-- The time since 1970. -/
structure UnixTime where
  secs : UInt64
  subsecNanos : Nat
  subsec_lt : subsecNanos < 1000000000
deriving DecidableEq

def UnixTime.asNanos (t : UnixTime) : Nat := t.secs.toNat * 1000000000 + t.subsecNanos

def UnixTime.zero : UnixTime := ⟨0, 0, by decide⟩

def stunBindingRequestType : UInt16 := 0x0001

/-- `now` is missing when the clock is set before 1970. -/
def stunTransactionId (now : Option UnixTime) (pid : UInt32) : Bytes 12 :=
  let nanos := BitVec.ofNat 128 (now.getD .zero).asNanos
  let mixed := nanos ^^^ (BitVec.ofNat 128 pid.toNat).rotateLeft 17
  ⟨(beBytes 16 mixed.toNat).drop 4, by rw [drop_beBytes 4 12, length_beBytes]⟩

def stunBindingRequest (transactionId : Bytes 12) : List UInt8 :=
  u16ToBe stunBindingRequestType ++ [0, 0] ++ u32ToBe stunMagicCookie ++ transactionId.toList

def hextets : List UInt8 → List UInt16
  | b :: c :: rest => u16FromBe b c :: hextets rest
  | _ => []

/-- One segment more: the first of the longest runs of zeroes so far, and the
run that ends here, each with its start and its length. -/
def zeroSpans (spans : (Nat × Nat) × (Nat × Nat)) (segment : UInt16 × Nat) :
    (Nat × Nat) × (Nat × Nat) :=
  let (longest, current) := spans
  if segment.1 = 0 then
    let current := (if current.2 = 0 then segment.2 else current.1, current.2 + 1)
    (if current.2 > longest.2 then current else longest, current)
  else (longest, (0, 0))

def longestZeroes (segments : List UInt16) : Nat × Nat :=
  (segments.zipIdx.foldl zeroSpans ((0, 0), (0, 0))).1

def hexChunk (segments : List UInt16) : String :=
  String.intercalate ":" (segments.map fun segment => lowerHex 0 segment.toNat)

def dottedQuad (octets : List UInt8) : String :=
  String.intercalate "." (octets.map fun octet => toString octet.toNat)

/-- The text of an address, as the standard library displays it. -/
def IpAddr.text : IpAddr → String
  | .v4 octets => dottedQuad octets.toList
  | .v6 octets =>
    if octets.toList.take 12 = List.replicate 10 0 ++ [0xff, 0xff] then
      "::ffff:" ++ dottedQuad (octets.toList.drop 12)
    else
      let segments := hextets octets.toList
      let (start, len) := longestZeroes segments
      if len > 1 then
        hexChunk (segments.take start) ++ "::" ++ hexChunk (segments.drop (start + len))
      else hexChunk segments

def SocketAddr.text (address : SocketAddr) : String :=
  match address.ip with
  | .v4 _ => address.ip.text ++ ":" ++ toString address.port.toNat
  | .v6 _ => "[" ++ address.ip.text ++ "]:" ++ toString address.port.toNat

example : SocketAddr.text ⟨.v6 ⟨[0x20, 1, 0xd, 0xb8, 0, 0, 0, 0, 0, 0, 0, 0, 0, 0, 0, 1], rfl⟩, 80⟩ =
    "[2001:db8::1]:80" := by decide +kernel

/-- What came within three seconds. -/
inductive StunAnswer
  | timedOut
  | failed (error : String)
  | datagram (bytes : List UInt8)
deriving DecidableEq

/-- What the calls of one probe return: `sendTo` its error, if there is one. -/
structure ProbeCalls where
  resolved : Except String (List SocketAddr)
  bindError : Option String
  now : Option UnixTime
  sendTo : List UInt8 → SocketAddr → Option String
  answer : StunAnswer

/-- The outcome of one probe, its error with all its causes; no more than 1500
bytes of a datagram are read. -/
def probeStunServer (pid : UInt32) (server : String) (calls : ProbeCalls) :
    Option (Except String SocketAddr) :=
  match calls.resolved with
  | .error error => some (.error ("failed to resolve STUN server " ++ server ++ ": " ++ error))
  | .ok [] => some (.error ("STUN server " ++ server ++ " did not resolve to an address"))
  | .ok (serverAddr :: _) =>
    match calls.bindError with
    | some error => some (.error ("failed to bind UDP socket for STUN probe: " ++ error))
    | none =>
      let transactionId := stunTransactionId calls.now pid
      let request := stunBindingRequest transactionId
      match calls.sendTo request serverAddr with
      | some error =>
        some (.error ("failed to send STUN request to " ++ serverAddr.text ++ ": " ++ error))
      | none =>
        match calls.answer with
        | .timedOut => some (.error ("timed out waiting for STUN response from " ++
            serverAddr.text ++ ": deadline has elapsed"))
        | .failed error => some (.error ("failed to receive STUN response: " ++ error))
        | .datagram bytes =>
          parseStunBindingResponse (bytes.take 1500) transactionId

section

variable {response : List UInt8} {pid : UInt32} {now now' : Option UnixTime}

theorem UnixTime.asNanos_lt (t : UnixTime) : t.asNanos < 2 ^ 94 := by
  have hsecs := t.secs.toNat_lt
  have hsubsec := t.subsec_lt
  rw [asNanos]
  omega

theorem UnixTime.asNanos_inj {t u : UnixTime} : t.asNanos = u.asNanos ↔ t = u := by
  obtain ⟨secs, subsecNanos, hsubsec⟩ := t
  obtain ⟨secs', subsecNanos', hsubsec'⟩ := u
  simp only [asNanos, UnixTime.mk.injEq]
  constructor
  · intro h
    exact ⟨UInt64.toNat_inj.mp (by omega), by omega⟩
  · rintro ⟨rfl, rfl⟩
    rfl

/-- The process id does not reach the bits that are cut off. -/
theorem rotated_pid_lt (pid : UInt32) :
    ((BitVec.ofNat 128 pid.toNat).rotateLeft 17).toNat < 2 ^ 96 := by
  have hpid := pid.toNat_lt
  rw [BitVec.toNat_rotateLeft, BitVec.toNat_ofNat]
  have hmod : pid.toNat % 2 ^ 128 = pid.toNat := Nat.mod_eq_of_lt (by omega)
  rw [hmod, show 17 % 128 = 17 from rfl, Nat.shiftLeft_eq, Nat.shiftRight_eq_div_pow,
    Nat.div_eq_of_lt (show pid.toNat < 2 ^ (128 - 17) by omega), Nat.or_zero,
    Nat.mod_eq_of_lt (by omega)]
  omega

/-- A process makes the same id twice only at the same instant. -/
theorem stunTransactionId_inj :
    stunTransactionId now pid = stunTransactionId now' pid ↔ now.getD .zero = now'.getD .zero := by
  have hmixed (t : UnixTime) : (BitVec.ofNat 128 t.asNanos ^^^
      (BitVec.ofNat 128 pid.toNat).rotateLeft 17).toNat < 256 ^ 12 := by
    have hnanos := t.asNanos_lt
    rw [BitVec.toNat_xor, BitVec.toNat_ofNat, Nat.mod_eq_of_lt (by omega)]
    exact Nat.xor_lt_two_pow (n := 96) (by omega) (rotated_pid_lt pid)
  have hnanos (t : UnixTime) : (BitVec.ofNat 128 t.asNanos).toNat = t.asNanos := by
    have hlt := t.asNanos_lt
    rw [BitVec.toNat_ofNat, Nat.mod_eq_of_lt (by omega)]
  rw [Bytes.ext_iff]
  simp only [stunTransactionId, drop_beBytes 4 12]
  rw [beBytes_inj (hmixed _) (hmixed _), BitVec.toNat_inj, BitVec.xor_left_inj, ← BitVec.toNat_inj,
    hnanos, hnanos, UnixTime.asNanos_inj]

/-- An answer to one probe is refused by every probe with another id. -/
theorem parseStunBindingResponse_other_id {id id' : Bytes 12} {address : SocketAddr}
    (h : parseStunBindingResponse response id = some (.ok address)) (hne : id ≠ id') :
    parseStunBindingResponse response id' = some (.error "STUN transaction id mismatch") := by
  have hlength : 20 ≤ response.length := by
    by_contra hshort
    rw [parseStunBindingResponse, if_pos (by omega)] at h
    cases h
  obtain ⟨messageType, messageLength, magicCookie, named, rest, rfl⟩ := exists_stunHeader hlength
  rw [parseStunBindingResponse_header, Option.some.injEq] at h
  rw [parseStunBindingResponse_header]
  split_ifs at h with htype hlong hcookie hid
  rw [ne_eq, not_not] at hid
  rw [if_neg htype, if_neg hlong, if_neg hcookie, hid, if_pos hne]

/-- The request of the probe went out, to the first address of the server. -/
def ProbeCalls.Sent (pid : UInt32) (calls : ProbeCalls) : Prop :=
  ∃ serverAddr more, calls.resolved = .ok (serverAddr :: more) ∧ calls.bindError = none ∧
    calls.sendTo (stunBindingRequest (stunTransactionId calls.now pid)) serverAddr = none

theorem probeStunServer_sent {calls : ProbeCalls} (h : calls.Sent pid) (server : String)
    (bytes : List UInt8) :
    probeStunServer pid server { calls with answer := .datagram bytes } =
      parseStunBindingResponse (bytes.take 1500) (stunTransactionId calls.now pid) := by
  obtain ⟨serverAddr, more, hresolved, hbind, hsend⟩ := h
  simp only [probeStunServer, hresolved, hbind, hsend]

/-- Without a request, or without an answer, there is no address. -/
theorem probeStunServer_ok {calls : ProbeCalls} {server : String} {address : SocketAddr}
    (h : probeStunServer pid server calls = some (.ok address)) :
    calls.Sent pid ∧ ∃ bytes, calls.answer = .datagram bytes := by
  unfold probeStunServer at h
  dsimp only at h
  split at h
  · cases h
  · cases h
  · rename_i serverAddr more hresolved
    split at h
    · cases h
    · rename_i hbind
      split at h
      · cases h
      · rename_i hsend
        split at h
        · cases h
        · cases h
        · rename_i bytes hanswer
          exact ⟨⟨serverAddr, more, hresolved, hbind, hsend⟩, bytes, hanswer⟩

theorem probeStunServer_isSome (server : String) (calls : ProbeCalls) :
    (probeStunServer pid server calls).isSome = true := by
  unfold probeStunServer
  dsimp only
  repeat' split
  all_goals first | rfl | exact Option.isSome_iff_exists.mpr (parseStunBindingResponse_isSome _ _)

/-- A mapped address in a datagram that one probe reads. -/
theorem exists_answer (transactionId : Bytes 12) : ∃ bytes : List UInt8, ∃ address,
    parseStunBindingResponse (bytes.take 1500) transactionId = some (.ok address) := by
  have hmaps : List.Forall₂ StunAttribute.Maps (mappedAttributes [sampleMapped])
      [⟨.v4 ⟨[10, 0, 0, 7], rfl⟩, 4001⟩] := .cons ⟨[], rfl⟩ .nil
  have hmapped := parseStunBindingResponse_mapped (by decide) (by decide) hmaps transactionId []
  refine ⟨stunBindingSuccess transactionId [sampleMapped] [], ⟨.v4 ⟨[10, 0, 0, 7], rfl⟩, 4001⟩, ?_⟩
  have hlength : (stunBindingSuccess transactionId [sampleMapped] []).length ≤ 1500 := by
    rw [stunBindingSuccess, List.length_append, length_stunHeader]
    decide
  rw [List.take_of_length_le hlength, hmapped]
  rfl

/-- Two probes of a process can take the same datagram for their answer only
when both were sent, and at the same instant of the clock. -/
theorem stun_probes_separate (pid : UInt32) (server server' : String) (calls calls' : ProbeCalls) :
    (∃ bytes address address',
      probeStunServer pid server { calls with answer := .datagram bytes } = some (.ok address) ∧
      probeStunServer pid server' { calls' with answer := .datagram bytes } =
        some (.ok address')) ↔
      calls.Sent pid ∧ calls'.Sent pid ∧ calls.now.getD .zero = calls'.now.getD .zero := by
  constructor
  · rintro ⟨bytes, address, address', h, h'⟩
    have hsent : calls.Sent pid := (probeStunServer_ok h).1
    have hsent' : calls'.Sent pid := (probeStunServer_ok h').1
    rw [probeStunServer_sent hsent] at h
    rw [probeStunServer_sent hsent'] at h'
    have hid : stunTransactionId calls.now pid = stunTransactionId calls'.now pid := by
      by_contra hne
      rw [parseStunBindingResponse_other_id h hne] at h'
      cases h'
    exact ⟨hsent, hsent', stunTransactionId_inj.mp hid⟩
  · rintro ⟨hsent, hsent', hnow⟩
    obtain ⟨bytes, address, hbytes⟩ := exists_answer (stunTransactionId calls.now pid)
    refine ⟨bytes, address, address, ?_, ?_⟩
    · rw [probeStunServer_sent hsent, hbytes]
    · rw [probeStunServer_sent hsent', ← stunTransactionId_inj.mpr hnow, hbytes]

end

end Voicers
