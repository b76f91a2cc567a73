import Voicers.Network.Ledger

/-! A network of daemons. Each peer id has a daemon that runs this code; what
they send each other as media requests is on its way until it is delivered or
lost, in any order. All other events reach a daemon from outside, at any
time. -/

namespace Voicers

open Lib

variable {κ : Codec} {lib : Libp2p}

/-- A media request on its way, with the daemon that built its frame and the
number of daemons that have forwarded it. -/
structure MediaMessage (lib : Libp2p) where
  origin : PeerId lib
  sender : PeerId lib
  receiver : String
  hops : Nat
  request : MediaRequest

structure Mesh (κ : Codec) (lib : Libp2p) where
  daemons : PeerId lib → Daemon κ
  inFlight : List (MediaMessage lib)

inductive MeshEvent (κ : Codec) (lib : Libp2p)
  | outside (node : PeerId lib) (event : Event κ lib)
  | deliver (index : Nat)
  | lose (index : Nat)

def Event.isMediaRequest : Event κ lib → Bool
  | .mediaRequest _ _ => true
  | _ => false

/-- The media requests among the effects of an event at `sender`. -/
def mediaMessages (origin sender : PeerId lib) (hops : Nat) (effects : List (Effect κ)) :
    List (MediaMessage lib) :=
  effects.filterMap fun
    | .sendMedia receiver request => some ⟨origin, sender, receiver, hops, request⟩
    | _ => none

/-- The daemon `node` handles an event; what it sends on is built by `origin`
and has been forwarded `hops` times. -/
def Mesh.handleAt (π : Profile) (m : Mesh κ lib) (node origin : PeerId lib) (hops : Nat)
    (event : Event κ lib) : List (MediaMessage lib) × Mesh κ lib :=
  let r := (m.daemons node).handle π lib event
  let sent := mediaMessages origin node hops r.2
  (sent, { daemons := Function.update m.daemons node r.1, inFlight := m.inFlight ++ sent })

def meshStep (π : Profile) (m : Mesh κ lib) :
    MeshEvent κ lib → Option (List (MediaMessage lib) × Mesh κ lib)
  | .outside node event =>
    if event.isMediaRequest then none else some (m.handleAt π node node 0 event)
  | .deliver index =>
    match m.inFlight[index]? with
    | none => none
    | some message =>
      if h : lib.isPeerId message.receiver = true then
        some (Mesh.handleAt π { m with inFlight := m.inFlight.eraseIdx index }
          ⟨message.receiver, h⟩ message.origin (message.hops + 1)
          (.mediaRequest message.sender message.request))
      else none
  | .lose index =>
    if index < m.inFlight.length then
      some ([], { m with inFlight := m.inFlight.eraseIdx index })
    else none

abbrev MeshTransition (κ : Codec) (lib : Libp2p) :=
  Transition (Mesh κ lib) (MeshEvent κ lib) (List (MediaMessage lib))

/-- Every daemon starts with its own persisted state, under its own id. -/
def Mesh.start (books : PeerId lib → PersistedState) (displayName : String) : Mesh κ lib where
  daemons p := Daemon.start (bootstrap (books p) displayName p.text)
  inFlight := []

def meshRun (π : Profile) (books : PeerId lib → PersistedState) (displayName : String)
    (events : List (MeshEvent κ lib)) : Option (List (MeshTransition κ lib) × Mesh κ lib) :=
  execute (meshStep π) (Mesh.start books displayName) events

/-- The transition delivers `message` to the daemon `node`. -/
structure DeliversTo (x : MeshTransition κ lib) (message : MediaMessage lib) (node : PeerId lib) :
    Prop where
  taken : ∃ index, x.input = .deliver index ∧ x.before.inFlight[index]? = some message
  receiver : message.receiver = node.text

theorem PeerId.ext_text {p q : PeerId lib} (h : p.text = q.text) : p = q := by
  cases p
  cases q
  simp_all

theorem mem_mediaMessages {origin sender : PeerId lib} {hops : Nat} {effects : List (Effect κ)}
    {message : MediaMessage lib} :
    message ∈ mediaMessages origin sender hops effects ↔
      .sendMedia message.receiver message.request ∈ effects ∧ message.origin = origin ∧
        message.sender = sender ∧ message.hops = hops := by
  simp only [mediaMessages, List.mem_filterMap]
  constructor
  · rintro ⟨effect, hmem, heq⟩
    cases effect with
    | sendMedia receiver request =>
      simp only [Option.some.injEq] at heq
      subst heq
      exact ⟨hmem, rfl, rfl, rfl⟩
    | _ => simp at heq
  · rintro ⟨hmem, rfl, rfl, rfl⟩
    exact ⟨_, hmem, rfl⟩

theorem meshStep_cases {π : Profile} {m m' : Mesh κ lib} {e : MeshEvent κ lib}
    {sent : List (MediaMessage lib)} (h : meshStep π m e = some (sent, m')) :
    (∃ node event, e = .outside node event ∧ event.isMediaRequest = false ∧
      (sent, m') = m.handleAt π node node 0 event) ∨
    (∃ index message, ∃ node : PeerId lib, e = .deliver index ∧
      m.inFlight[index]? = some message ∧ message.receiver = node.text ∧
      (sent, m') = Mesh.handleAt π { m with inFlight := m.inFlight.eraseIdx index } node
        message.origin (message.hops + 1) (.mediaRequest message.sender message.request)) ∨
    (∃ index, e = .lose index ∧ sent = [] ∧
      m' = { m with inFlight := m.inFlight.eraseIdx index }) := by
  cases e with
  | outside node event =>
    simp only [meshStep] at h
    split_ifs at h with hrequest
    exact .inl ⟨node, event, rfl, eq_false_of_ne_true hrequest, (Option.some.inj h).symm⟩
  | deliver index =>
    cases hm : m.inFlight[index]? with
    | none => simp [meshStep, hm] at h
    | some message =>
      simp only [meshStep, hm] at h
      split_ifs at h with hvalid
      exact .inr (.inl ⟨index, message, ⟨message.receiver, hvalid⟩, rfl, hm, rfl,
        (Option.some.inj h).symm⟩)
  | lose index =>
    simp only [meshStep] at h
    split_ifs at h
    obtain ⟨rfl, rfl⟩ := Prod.mk.inj (Option.some.inj h)
    exact .inr (.inr ⟨index, rfl, rfl, rfl⟩)

end Voicers
