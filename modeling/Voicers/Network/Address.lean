import Voicers.Core.Status
import Voicers.Lib.FirstMatch

/-! Peer ids and dial addresses (`network.rs`, `network/invite.rs`). Parsing
is the libp2p library's and a parameter; what the daemon decides about a
parsed address is not. -/

namespace Voicers

open Lib

/-- The components of a multiaddr. Transports the daemon refuses to dial are
one constructor, components it passes over another. -/
inductive Protocol
  | ip4 (unspecified loopback : Bool)
  | ip6 (unspecified loopback : Bool)
  | dns
  | dnsaddr
  | tcp
  | udp
  | quic
  | websocket
  | p2p (peerId : String)
  | p2pCircuit
  | unsupported
  | other
deriving DecidableEq

/-- What the daemon asks of libp2p. A peer id is represented by its text, and
`isPeerId` tells the texts that parse; `allowLoopback` is the environment
variable `VOICERS_ALLOW_LOOPBACK_INVITES`. -/
structure Libp2p where
  isPeerId : String → Bool
  parseMultiaddr : String → Option (List Protocol)
  allowLoopback : Bool

/-- A peer id as the swarm reports it. -/
structure PeerId (lib : Libp2p) where
  text : String
  valid : lib.isPeerId text = true
deriving DecidableEq

def isSupportedDialAddr (address : List Protocol) : Bool :=
  let hasHost := address.any fun
    | .ip4 _ _ | .ip6 _ _ | .dns => true
    | _ => false
  let hasTcp := address.contains .tcp
  let hasUdp := address.contains .udp
  let hasQuic := address.contains .quic
  let hasWebsocket := address.contains .websocket
  !address.any (fun | .dnsaddr | .unsupported => true | _ => false) &&
    (hasHost && ((hasTcp && !hasQuic) || (hasTcp && hasWebsocket) || (hasUdp && hasQuic)))

def isRelayedAddr (address : List Protocol) : Bool := address.contains .p2pCircuit

/-- The first host component decides. -/
def hostShareable (allowLoopback : Bool) : List Protocol → Bool
  | [] => false
  | .ip4 unspecified loopback :: _ => !(unspecified || (loopback && !allowLoopback))
  | .ip6 unspecified loopback :: _ => !(unspecified || (loopback && !allowLoopback))
  | .dns :: _ => true
  | .dnsaddr :: _ => true
  | _ :: rest => hostShareable allowLoopback rest

def isShareableMultiaddr (lib : Libp2p) (address : List Protocol) : Bool :=
  isSupportedDialAddr address && hostShareable lib.allowLoopback address

/-- Whether `needle` occurs in a text, as `str::contains` tells. -/
def textContains (text needle : String) : Bool :=
  text.toList.tails.any (fun rest => needle.toList.isPrefixOf rest)

def shareableAddress (lib : Libp2p) (address localPeerId : String) : Option String :=
  if localPeerId = "<starting>" ∨ localPeerId = "" then none
  else match lib.parseMultiaddr address with
    | none => none
    | some multiaddr =>
      if !isShareableMultiaddr lib multiaddr then none
      else if textContains address "/p2p/" then some address
      else some (address ++ "/p2p/" ++ localPeerId)

def libp2pDirectPath : String := "libp2p-direct"
def libp2pRelayPath : String := "libp2p-relay"

def addressPathName (lib : Libp2p) (address : String) : String :=
  match lib.parseMultiaddr address with
  | some multiaddr => if isRelayedAddr multiaddr then libp2pRelayPath else libp2pDirectPath
  | none => libp2pDirectPath

def multiaddrPeerId : List Protocol → Option String
  | [] => none
  | .p2p peerId :: _ => some peerId
  | _ :: rest => multiaddrPeerId rest

/-- The characters that make up the first `bytes` bytes of a text; `none` when
it is shorter or a character straddles the boundary. -/
def bytePrefix : Nat → List Char → Option (List Char)
  | 0, _ => some []
  | _ + 1, [] => none
  | bytes + 1, c :: cs =>
    if c.utf8Size ≤ bytes + 1 then (bytePrefix (bytes + 1 - c.utf8Size) cs).map (c :: ·) else none
termination_by structural _ cs => cs

def shortPeerId (peerId : String) : String :=
  match bytePrefix 12 peerId.toList with
  | some chars => String.ofList chars
  | none => peerId

end Voicers
