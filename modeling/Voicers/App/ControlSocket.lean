import Voicers.Lib.Interleave

/-! The control socket (`control.rs` of the daemon, `client.rs` of the client):
a call opens a connection, sends its request as a line, and takes one line for
the answer; the daemon serves every connection on a task of its own, line after
line. A connection carries whole lines, in order, until one side goes away. -/

namespace Voicers

open Lib

/-- Requests and answers as JSON, the way `serde_json` writes and reads them. -/
structure ControlJson (Request Response : Type) where
  requestText : Request → String
  readRequest : String → Option Request
  readRequest_text : ∀ request, readRequest (requestText request) = some request
  responseText : Response → String
  readResponse : String → Option Response
  readResponse_text : ∀ response, readResponse (responseText response) = some response

/-- How far a call gets on its own; a line that could not be sent may have
arrived all the same. -/
inductive CallStart
  | refused
  | unsent (error : String) (arrived : Bool)
  | sent
deriving DecidableEq

/-- `program` is any other program that connects. -/
inductive ControlPeer (Request : Type)
  | call (request : Request) (how : CallStart)
  | program
deriving DecidableEq

inductive ControlClient (Response : Type)
  | calling
  | returned (result : Except String Response)
  | program
  | gone
deriving DecidableEq

/-- Where `handle_connection` is. -/
inductive Serving (Request : Type)
  | reading
  | handling (request : Request)
  | closed

structure ControlConnection (Request Response : Type) where
  client : ControlClient Response
  serving : Serving Request
  toDaemon : List String
  toClient : List String

inductive ControlEvent (Response : Type)
  | send (line : String)
  | read
  | readFails
  | endOfStream
  | respond (response : Response) (sent : Bool)
  | receive
  | receiveFails (error : String)
  | hangUp
  | leave

inductive ControlLog (Request Response : Type)
  | sent (line : String)
  | handled (request : Request)
  | answered (request : Request) (response : Response)
  | received (line : String)
  | nothing

variable {Request Response : Type} (json : ControlJson Request Response)

namespace ControlConnection

/-- `send_request_to`, up to the wait for the answer. -/
def start (controlAddr : String) : ControlPeer Request → ControlConnection Request Response
  | .call _ .refused =>
    ⟨.returned (.error ("failed to connect to daemon at " ++ controlAddr)), .closed, [], []⟩
  | .call request (.unsent error arrived) =>
    ⟨.returned (.error error), .reading, if arrived then [json.requestText request] else [], []⟩
  | .call request .sent => ⟨.calling, .reading, [json.requestText request], []⟩
  | .program => ⟨.program, .reading, [], []⟩

def clientListens (c : ControlConnection Request Response) : Bool :=
  match c.client with
  | .calling | .program => true
  | .returned _ | .gone => false

/-- The daemon's part of a connection, which ends with the first line that is no
request and with the first answer that cannot be sent. -/
def serve (c : ControlConnection Request Response) :
    ControlEvent Response → Option (ControlLog Request Response × ControlConnection Request Response)
  | .read =>
    match c.serving, c.toDaemon with
    | .reading, line :: rest =>
      match json.readRequest line with
      | none => some (.nothing, { c with serving := .closed, toDaemon := rest })
      | some request =>
        some (.handled request, { c with serving := .handling request, toDaemon := rest })
    | _, _ => none
  | .readFails =>
    match c.serving with
    | .reading => some (.nothing, { c with serving := .closed })
    | _ => none
  | .endOfStream =>
    match c.serving, c.toDaemon with
    | .reading, [] => if c.clientListens then none else some (.nothing, { c with serving := .closed })
    | _, _ => none
  | .respond response sent =>
    match c.serving with
    | .handling request => some (.answered request response,
        if sent then
          { c with
            serving := .reading
            toClient := if c.clientListens then c.toClient ++ [json.responseText response]
              else c.toClient }
        else { c with serving := .closed })
    | _ => none
  | _ => none

/-- The answer that `send_request_to` makes of a line. -/
def readAnswer (line : String) : Except String Response :=
  match json.readResponse line with
  | none => .error "failed to decode response"
  | some response => .ok response

/-- The client's part, which ends with the first line. -/
def call (c : ControlConnection Request Response) :
    ControlEvent Response → Option (ControlLog Request Response × ControlConnection Request Response)
  | .send line =>
    match c.client, c.serving with
    | .program, .closed => some (.sent line, c)
    | .program, _ => some (.sent line, { c with toDaemon := c.toDaemon ++ [line] })
    | _, _ => none
  | .receive =>
    match c.client, c.toClient with
    | .calling, line :: rest => some (.received line,
        { c with client := .returned (readAnswer json line), toClient := rest })
    | .program, line :: rest => some (.received line, { c with toClient := rest })
    | _, _ => none
  | .receiveFails error =>
    match c.client with
    | .calling => some (.nothing, { c with client := .returned (.error error), toClient := [] })
    | .program => some (.nothing, { c with client := .gone, toClient := [] })
    | _ => none
  | .hangUp =>
    match c.client, c.serving, c.toClient with
    | .calling, .closed, [] => some (.nothing,
        { c with client := .returned (.error "daemon closed the control connection") })
    | .program, .closed, [] => some (.nothing, { c with client := .gone })
    | _, _, _ => none
  | .leave => if c.clientListens then some (.nothing, { c with client := .gone }) else none
  | _ => none

def step (c : ControlConnection Request Response) (e : ControlEvent Response) :
    Option (ControlLog Request Response × ControlConnection Request Response) :=
  match e with
  | .read | .readFails | .endOfStream | .respond _ _ => c.serve json e
  | .send _ | .receive | .receiveFails _ | .hangUp | .leave => c.call json e

end ControlConnection

abbrev ControlTransition (Request Response : Type) :=
  Transition (ControlConnection Request Response) (ControlEvent Response)
    (ControlLog Request Response)

namespace ControlLog

def sent? : ControlLog Request Response → Option String
  | .sent line => some line
  | _ => none

def handled? : ControlLog Request Response → Option Request
  | .handled request => some request
  | _ => none

def answered? : ControlLog Request Response → Option (Request × Response)
  | .answered request response => some (request, response)
  | _ => none

def received? : ControlLog Request Response → Option String
  | .received line => some line
  | _ => none

end ControlLog

/-- What a connection is told, handles, answers and tells its client, in order. -/
structure ControlTally (Request Response : Type) where
  sent : List String
  handled : List Request
  answered : List (Request × Response)
  received : List String

def controlTally (tr : List (ControlTransition Request Response)) :
    ControlTally Request Response where
  sent := tr.filterMap fun x => x.output.sent?
  handled := tr.filterMap fun x => x.output.handled?
  answered := tr.filterMap fun x => x.output.answered?
  received := tr.filterMap fun x => x.output.received?

/-- The lines that were sent before the client waits. -/
def ControlPeer.opening : ControlPeer Request → List String
  | .call _ .refused | .call _ (.unsent _ false) | .program => []
  | .call request (.unsent _ true) | .call request .sent => [json.requestText request]

def ControlPeer.isProgram : ControlPeer Request → Bool
  | .program => true
  | .call _ _ => false

/-- How the two ends of a connection stand to what went over it. -/
structure ControlBooks (peer : ControlPeer Request) (t : ControlTally Request Response)
    (c : ControlConnection Request Response) : Prop where
  handled : t.handled.map some <+: (peer.opening json ++ t.sent).map json.readRequest
  answered : t.answered.map Prod.fst <+: t.handled
  received : t.received <+: t.answered.map fun answer => json.responseText answer.2
  unread : c.serving ≠ .closed → ∃ read, read ++ c.toDaemon = peer.opening json ++ t.sent ∧
    read.map json.readRequest = t.handled.map some
  reading : c.serving = .reading → t.answered.map Prod.fst = t.handled
  handling request : c.serving = .handling request →
    t.answered.map Prod.fst ++ [request] = t.handled
  underway : t.received ++ c.toClient <+: t.answered.map fun answer => json.responseText answer.2
  arrived : c.serving ≠ .closed → c.clientListens = true →
    t.received ++ c.toClient = t.answered.map fun answer => json.responseText answer.2
  calling : c.client = .calling → t.received = []
  returned response : c.client = .returned (.ok response) →
    ∃ line, t.received = [line] ∧ json.readResponse line = some response
  program : c.client = .program → peer.isProgram = true
  sends : peer.isProgram = false → t.sent = []

section

variable {json} {controlAddr : String} {peer : ControlPeer Request}
  {t : ControlTally Request Response} {c d : ControlConnection Request Response}
  {e : ControlEvent Response} {log : ControlLog Request Response}

theorem controlBooks_start (peer : ControlPeer Request) :
    ControlBooks json peer (controlTally []) (.start json controlAddr peer) := by
  rcases peer with ⟨request, how⟩ | _
  · rcases how with _ | ⟨error, _ | _⟩ | _
    all_goals
      constructor
      all_goals simp [controlTally, ControlConnection.start, ControlPeer.opening,
        ControlPeer.isProgram, ControlConnection.clientListens]
  · constructor
    all_goals simp [controlTally, ControlConnection.start, ControlPeer.opening,
      ControlPeer.isProgram, ControlConnection.clientListens]

/-- The tally after one more entry of the log. -/
def ControlTally.add (t : ControlTally Request Response) (log : ControlLog Request Response) :
    ControlTally Request Response where
  sent := t.sent ++ log.sent?.toList
  handled := t.handled ++ log.handled?.toList
  answered := t.answered ++ log.answered?.toList
  received := t.received ++ log.received?.toList

/-- What a step of a connection comes to. -/
inductive ControlMove (json : ControlJson Request Response)
    (c : ControlConnection Request Response) :
    ControlLog Request Response → ControlConnection Request Response → Prop
  | send (line : String) (hclient : c.client = .program) (hopen : c.serving ≠ .closed) :
    ControlMove json c (.sent line) { c with toDaemon := c.toDaemon ++ [line] }
  | lose (line : String) (hclient : c.client = .program) (hclosed : c.serving = .closed) :
    ControlMove json c (.sent line) c
  | handle (line : String) (rest : List String) (request : Request) (hreading : c.serving = .reading)
    (hline : c.toDaemon = line :: rest) (hread : json.readRequest line = some request) :
    ControlMove json c (.handled request) { c with serving := .handling request, toDaemon := rest }
  | close (rest : List String) (hreading : c.serving = .reading) :
    ControlMove json c .nothing { c with serving := .closed, toDaemon := rest }
  | answer (request : Request) (response : Response) (hhandling : c.serving = .handling request) :
    ControlMove json c (.answered request response)
      { c with
        serving := .reading
        toClient := if c.clientListens then c.toClient ++ [json.responseText response]
          else c.toClient }
  | fail (request : Request) (response : Response) (hhandling : c.serving = .handling request) :
    ControlMove json c (.answered request response) { c with serving := .closed }
  | finish (line : String) (rest : List String) (hclient : c.client = .calling)
    (hline : c.toClient = line :: rest) :
    ControlMove json c (.received line)
      { c with client := .returned (ControlConnection.readAnswer json line), toClient := rest }
  | take (line : String) (rest : List String) (hclient : c.client = .program)
    (hline : c.toClient = line :: rest) :
    ControlMove json c (.received line) { c with toClient := rest }
  | leave (client : ControlClient Response) (rest : List String) (hrest : rest <+: c.toClient)
    (hclient : client = .gone ∨ ∃ error, client = .returned (.error error)) :
    ControlMove json c .nothing { c with client := client, toClient := rest }

theorem ControlConnection.serve_move (h : c.serve json e = some (log, d)) :
    ControlMove json c log d := by
  cases e with
  | read =>
    simp only [serve] at h
    split at h
    · rename_i line rest hreading hline
      split at h
      · cases h
        exact .close rest hreading
      · rename_i request hread
        cases h
        exact .handle line rest request hreading hline hread
    · cases h
  | readFails =>
    simp only [serve] at h
    split at h
    · rename_i hreading
      cases h
      exact .close c.toDaemon hreading
    · cases h
  | endOfStream =>
    simp only [serve] at h
    split at h
    · rename_i hreading hline
      split_ifs at h
      cases h
      exact .close c.toDaemon hreading
    · cases h
  | respond response sent =>
    simp only [serve] at h
    split at h
    · rename_i request hhandling
      cases sent
      · cases h
        exact .fail request response hhandling
      · cases h
        exact .answer request response hhandling
    · cases h
  | _ => cases h

theorem ControlConnection.call_move (h : c.call json e = some (log, d)) :
    ControlMove json c log d := by
  cases e with
  | send line =>
    simp only [call] at h
    split at h
    · rename_i hclient hclosed
      cases h
      exact .lose line hclient hclosed
    · rename_i hclient hopen
      cases h
      exact .send line hclient hopen
    · cases h
  | receive =>
    simp only [call] at h
    split at h
    · rename_i line rest hclient hline
      cases h
      exact .finish line rest hclient hline
    · rename_i line rest hclient hline
      cases h
      exact .take line rest hclient hline
    · cases h
  | receiveFails error =>
    simp only [call] at h
    split at h
    · cases h
      exact .leave _ [] List.nil_prefix (.inr ⟨error, rfl⟩)
    · cases h
      exact .leave _ [] List.nil_prefix (.inl rfl)
    · cases h
  | hangUp =>
    simp only [call] at h
    split at h
    · cases h
      exact .leave _ c.toClient List.prefix_rfl (.inr ⟨_, rfl⟩)
    · cases h
      exact .leave _ c.toClient List.prefix_rfl (.inl rfl)
    · cases h
  | leave =>
    simp only [call] at h
    split_ifs at h
    cases h
    exact .leave _ c.toClient List.prefix_rfl (.inl rfl)
  | _ => cases h

theorem ControlConnection.step_move (h : c.step json e = some (log, d)) :
    ControlMove json c log d := by
  cases e with
  | read | readFails | endOfStream | respond =>
    rw [step] at h
    exact serve_move h
  | send | receive | receiveFails | hangUp | leave =>
    rw [step] at h
    exact call_move h

@[simp] theorem add_nothing : t.add .nothing = t := by
  simp [ControlTally.add, ControlLog.sent?, ControlLog.handled?, ControlLog.answered?,
    ControlLog.received?]

@[simp] theorem add_sent (line : String) :
    t.add (.sent line) = { t with sent := t.sent ++ [line] } := by
  simp [ControlTally.add, ControlLog.sent?, ControlLog.handled?, ControlLog.answered?,
    ControlLog.received?]

@[simp] theorem add_handled (request : Request) :
    t.add (.handled request) = { t with handled := t.handled ++ [request] } := by
  simp [ControlTally.add, ControlLog.sent?, ControlLog.handled?, ControlLog.answered?,
    ControlLog.received?]

@[simp] theorem add_answered (request : Request) (response : Response) :
    t.add (.answered request response) =
      { t with answered := t.answered ++ [(request, response)] } := by
  simp [ControlTally.add, ControlLog.sent?, ControlLog.handled?, ControlLog.answered?,
    ControlLog.received?]

@[simp] theorem add_received (line : String) :
    t.add (.received line) = { t with received := t.received ++ [line] } := by
  simp [ControlTally.add, ControlLog.sent?, ControlLog.handled?, ControlLog.answered?,
    ControlLog.received?]

namespace ControlBooks

theorem told (h : ControlBooks json peer t c) (line : String) :
    t.handled.map some <+: (peer.opening json ++ (t.sent ++ [line])).map json.readRequest := by
  refine h.handled.trans ?_
  rw [← List.append_assoc]
  exact (List.prefix_append _ [line]).map _

theorem send (h : ControlBooks json peer t c) {line : String} (hclient : c.client = .program)
    (hopen : c.serving ≠ .closed) : ControlBooks json peer { t with sent := t.sent ++ [line] }
      { c with toDaemon := c.toDaemon ++ [line] } where
  __ := h
  handled := h.told line
  unread _ := by
    obtain ⟨read, hlines, hreads⟩ := h.unread hopen
    exact ⟨read, by rw [← List.append_assoc, hlines, List.append_assoc], hreads⟩
  sends hcall := by
    rw [h.program hclient] at hcall
    cases hcall

theorem lose (h : ControlBooks json peer t c) {line : String} (hclient : c.client = .program)
    (hclosed : c.serving = .closed) :
    ControlBooks json peer { t with sent := t.sent ++ [line] } c where
  __ := h
  handled := h.told line
  unread hopen := absurd hclosed hopen
  sends hcall := by
    rw [h.program hclient] at hcall
    cases hcall

theorem handle (h : ControlBooks json peer t c) {line : String} {rest : List String}
    {request : Request} (hreading : c.serving = .reading) (hline : c.toDaemon = line :: rest)
    (hread : json.readRequest line = some request) :
    ControlBooks json peer { t with handled := t.handled ++ [request] }
      { c with serving := .handling request, toDaemon := rest } := by
  have hopen : c.serving ≠ .closed := by simp [hreading]
  obtain ⟨read, hlines, hreads⟩ := h.unread hopen
  have hsent : (read ++ [line]) ++ rest = peer.opening json ++ t.sent := by
    rw [List.append_assoc, List.singleton_append, ← hline, hlines]
  have hhandled : (read ++ [line]).map json.readRequest = (t.handled ++ [request]).map some := by
    simp [hreads, hread]
  exact {
    h with
    handled := by
      rw [← hhandled, ← hsent]
      exact (List.prefix_append _ rest).map _
    answered := h.answered.trans (List.prefix_append _ _)
    unread := fun _ => ⟨read ++ [line], hsent, hhandled⟩
    reading := nofun
    handling := fun other hother => by
      cases hother
      rw [h.reading hreading]
    arrived := fun _ => h.arrived hopen }

theorem close (h : ControlBooks json peer t c) (rest : List String) :
    ControlBooks json peer t { c with serving := .closed, toDaemon := rest } where
  __ := h
  unread hopen := absurd rfl hopen
  reading := nofun
  handling := nofun
  arrived hopen := absurd rfl hopen

theorem answered_more (answered : List (Request × Response)) (request : Request)
    (response : Response) :
    answered.map (fun answer => json.responseText answer.2) <+:
      (answered ++ [(request, response)]).map fun answer => json.responseText answer.2 := by
  rw [List.map_append]
  exact List.prefix_append _ _

theorem answer (h : ControlBooks json peer t c) {request : Request} {response : Response}
    (hhandling : c.serving = .handling request) :
    ControlBooks json peer { t with answered := t.answered ++ [(request, response)] }
      { c with
        serving := .reading
        toClient := if c.clientListens then c.toClient ++ [json.responseText response]
          else c.toClient } := by
  have hopen : c.serving ≠ .closed := by simp [hhandling]
  have hall : (t.answered ++ [(request, response)]).map Prod.fst = t.handled := by
    rw [List.map_append]
    exact h.handling request hhandling
  have harrived : c.clientListens = true →
      t.received ++ (if c.clientListens then c.toClient ++ [json.responseText response]
        else c.toClient) =
        (t.answered ++ [(request, response)]).map fun answer => json.responseText answer.2 := by
    intro hlistens
    rw [if_pos hlistens, ← List.append_assoc, h.arrived hopen hlistens, List.map_append]
    rfl
  exact {
    h with
    answered := hall ▸ List.prefix_rfl
    received := h.received.trans (answered_more _ _ _)
    unread := fun _ => h.unread hopen
    reading := fun _ => hall
    handling := nofun
    underway := by
      by_cases hlistens : c.clientListens = true
      · exact harrived hlistens ▸ List.prefix_rfl
      · simp only [hlistens]
        exact h.underway.trans (answered_more _ _ _)
    arrived := fun _ => harrived }

theorem fail (h : ControlBooks json peer t c) {request : Request} (response : Response)
    (hhandling : c.serving = .handling request) :
    ControlBooks json peer { t with answered := t.answered ++ [(request, response)] }
      { c with serving := .closed } where
  __ := h
  answered := by
    rw [List.map_append, ← h.handling request hhandling]
    exact List.prefix_rfl
  received := h.received.trans (answered_more _ _ _)
  unread hopen := absurd rfl hopen
  reading := nofun
  handling := nofun
  underway := h.underway.trans (answered_more _ _ _)
  arrived hopen := absurd rfl hopen

theorem received_next {line : String} {rest : List String} (hline : c.toClient = line :: rest) :
    (t.received ++ [line]) ++ rest = t.received ++ c.toClient := by
  rw [hline, List.append_assoc, List.singleton_append]

theorem finish (h : ControlBooks json peer t c) {line : String} {rest : List String}
    (hclient : c.client = .calling) (hline : c.toClient = line :: rest) :
    ControlBooks json peer { t with received := t.received ++ [line] }
      { c with client := .returned (ControlConnection.readAnswer json line), toClient := rest } where
  __ := h
  received := (List.prefix_append _ rest).trans (received_next hline ▸ h.underway)
  underway := received_next hline ▸ h.underway
  arrived _ hlistens := nomatch hlistens
  calling := nofun
  returned response hresponse := by
    refine ⟨line, by rw [h.calling hclient]; rfl, ?_⟩
    have hread := ControlClient.returned.inj hresponse
    unfold ControlConnection.readAnswer at hread
    split at hread
    · cases hread
    · rename_i hsome
      cases hread
      exact hsome
  program := nofun

theorem take (h : ControlBooks json peer t c) {line : String} {rest : List String}
    (hclient : c.client = .program) (hline : c.toClient = line :: rest) :
    ControlBooks json peer { t with received := t.received ++ [line] }
      { c with toClient := rest } where
  __ := h
  received := (List.prefix_append _ rest).trans (received_next hline ▸ h.underway)
  underway := received_next hline ▸ h.underway
  arrived hopen hlistens := (received_next hline).trans (h.arrived hopen hlistens)
  calling hcalling := by
    rw [hclient] at hcalling
    cases hcalling
  returned response hreturned := by
    rw [hclient] at hreturned
    cases hreturned

theorem leave (h : ControlBooks json peer t c) {client : ControlClient Response}
    {rest : List String} (hrest : rest <+: c.toClient)
    (hclient : client = .gone ∨ ∃ error, client = .returned (.error error)) :
    ControlBooks json peer t { c with client := client, toClient := rest } where
  __ := h
  underway := ((List.prefix_append_right_inj _).mpr hrest).trans h.underway
  arrived _ hlistens := by
    rcases hclient with rfl | ⟨error, rfl⟩
    · cases hlistens
    · cases hlistens
  calling hcalling := by
    rcases hclient with rfl | ⟨error, rfl⟩
    · cases hcalling
    · cases hcalling
  returned response hreturned := by
    rcases hclient with rfl | ⟨error, rfl⟩
    · cases hreturned
    · cases hreturned
  program hprogram := by
    rcases hclient with rfl | ⟨error, rfl⟩
    · cases hprogram
    · cases hprogram

theorem move (h : ControlBooks json peer t c) (hmove : ControlMove json c log d) :
    ControlBooks json peer (t.add log) d := by
  cases hmove with
  | send line hclient hopen => exact add_sent line ▸ h.send hclient hopen
  | lose line hclient hclosed => exact add_sent line ▸ h.lose hclient hclosed
  | handle line rest request hreading hline hread =>
    exact add_handled request ▸ h.handle hreading hline hread
  | close rest hreading =>
    rw [add_nothing]
    exact h.close rest
  | answer request response hhandling => exact add_answered request response ▸ h.answer hhandling
  | fail request response hhandling =>
    exact add_answered request response ▸ h.fail response hhandling
  | finish line rest hclient hline => exact add_received line ▸ h.finish hclient hline
  | take line rest hclient hline => exact add_received line ▸ h.take hclient hline
  | leave client rest hrest hclient =>
    rw [add_nothing]
    exact h.leave hrest hclient

end ControlBooks

theorem controlTally_snoc (tr : List (ControlTransition Request Response))
    (x : ControlTransition Request Response) :
    controlTally (tr ++ [x]) = (controlTally tr).add x.output := by
  have hmap {α : Type} (f : ControlLog Request Response → Option α) :
      (tr ++ [x]).filterMap (fun y => f y.output) =
        tr.filterMap (fun y => f y.output) ++ (f x.output).toList := by
    rw [List.filterMap_append]
    cases hx : f x.output with
    | none => simp [hx]
    | some _ => simp [hx]
  simp only [controlTally, ControlTally.add, hmap]

/-- The books of one connection hold all along its run. -/
theorem controlBooks_run {tr : List (ControlTransition Request Response)}
    (h : Trace (ControlConnection.step json) (.start json controlAddr peer) tr c) :
    ControlBooks json peer (controlTally tr) c :=
  h.snoc_induction (P := fun tr c => ControlBooks json peer (controlTally tr) c)
    (controlBooks_start peer) fun tr x _ hstep ih => by
      rw [controlTally_snoc]
      exact ih.move (ControlConnection.step_move hstep)

/-- A call is handled at most once, whatever it returns; when it returns an
answer, it was handled, and the answer is its own. -/
theorem ControlBooks.of_call {request : Request} {how : CallStart}
    (h : ControlBooks json (.call request how) t c) :
    (t.handled = [] ∨ t.handled = [request]) ∧
      ∀ response, c.client = .returned (.ok response) →
        t.handled = [request] ∧ t.answered = [(request, response)] := by
  have hopening : (ControlPeer.call request how).opening json <+: [json.requestText request] := by
    rcases how with _ | ⟨error, _ | _⟩ | _
    · exact List.nil_prefix
    · exact List.nil_prefix
    · exact List.prefix_rfl
    · exact List.prefix_rfl
  have hhandled : t.handled.map some <+: [some request] := by
    refine h.handled.trans ?_
    rw [h.sends rfl, List.append_nil, ← json.readRequest_text]
    exact hopening.map json.readRequest
  have hone : t.handled = [] ∨ t.handled = [request] := by
    rcases hlist : t.handled with _ | ⟨first, more⟩
    · exact .inl rfl
    · rw [hlist, List.map_cons, List.cons_prefix_cons, List.prefix_nil, List.map_eq_nil_iff,
        Option.some.injEq] at hhandled
      obtain ⟨rfl, rfl⟩ := hhandled
      exact .inr rfl
  refine ⟨hone, fun response hresponse => ?_⟩
  obtain ⟨line, hreceived, hread⟩ := h.returned response hresponse
  have hanswered := h.answered
  have hline := h.received
  rw [hreceived] at hline
  rcases hlist : t.answered with _ | ⟨⟨asked, answer⟩, more⟩
  · simp [hlist] at hline
  · rw [hlist, List.map_cons, List.cons_prefix_cons] at hline
    rw [hline.1, json.readResponse_text, Option.some.injEq] at hread
    rw [hlist, List.map_cons] at hanswered
    rcases hone with hnone | hone
    · simp [hnone] at hanswered
    · rw [hone, List.cons_prefix_cons, List.prefix_nil, List.map_eq_nil_iff] at hanswered
      obtain ⟨rfl, rfl⟩ := hanswered
      exact ⟨hone, by rw [← hread]⟩

end

/-- The control socket of a daemon, with all the connections that were opened. -/
abbrev ControlRun (json : ControlJson Request Response) (controlAddr : String)
    (tr : List (FamilyTransition (ControlConnection Request Response) (ControlEvent Response)
      (ControlLog Request Response) (ControlPeer Request)))
    (connections : List (ControlConnection Request Response)) : Prop :=
  Trace (familyStep (ControlConnection.start json controlAddr) (ControlConnection.step json)) [] tr
    connections

section

variable {json} {controlAddr : String}
  {tr : List (FamilyTransition (ControlConnection Request Response) (ControlEvent Response)
    (ControlLog Request Response) (ControlPeer Request))}
  {connections : List (ControlConnection Request Response)}

/-- Whatever the order in which connections are opened, served and answered:
each is answered for its own lines, in their order, up to the first one that is
no request; and a call that returns an answer was handled once, and it is the
answer to its request. -/
theorem control_calls_matched (h : ControlRun json controlAddr tr connections) {number : Nat}
    {c : ControlConnection Request Response} (hc : connections[number]? = some c) :
    ∃ peer, (starts tr)[number]? = some peer ∧
      let t := controlTally (memberTrace number tr)
      t.handled.map some <+: (peer.opening json ++ t.sent).map json.readRequest ∧
      t.answered.map Prod.fst <+: t.handled ∧
      t.received <+: t.answered.map (fun answer => json.responseText answer.2) ∧
      ∀ request how, peer = .call request how →
        (t.handled = [] ∨ t.handled = [request]) ∧
        ∀ response, c.client = .returned (.ok response) →
          t.handled = [request] ∧ t.answered = [(request, response)] := by
  obtain ⟨peer, hpeer, htrace⟩ := (familyRun h).member number c hc
  have hbooks := controlBooks_run htrace
  refine ⟨peer, hpeer, hbooks.handled, hbooks.answered, hbooks.received, ?_⟩
  rintro request how rfl
  exact hbooks.of_call

end

/-- The requests without arguments. -/
inductive PlainRequest
  | getStatus
  | toggleMuteSelf
  | rotateInviteCode
deriving DecidableEq

/-- The two answers to a `ToggleMuteSelf`. -/
inductive MuteAnswer
  | muted
  | unmuted
deriving DecidableEq

def plainJson : ControlJson PlainRequest MuteAnswer where
  requestText
    | .getStatus => "\"GetStatus\""
    | .toggleMuteSelf => "\"ToggleMuteSelf\""
    | .rotateInviteCode => "\"RotateInviteCode\""
  readRequest line :=
    if line = "\"GetStatus\"" then some .getStatus
    else if line = "\"ToggleMuteSelf\"" then some .toggleMuteSelf
    else if line = "\"RotateInviteCode\"" then some .rotateInviteCode
    else none
  readRequest_text request := by cases request <;> decide
  responseText
    | .muted => "\x7b\"Ack\":\x7b\"message\":\"self muted\"\x7d\x7d"
    | .unmuted => "\x7b\"Ack\":\x7b\"message\":\"self unmuted\"\x7d\x7d"
  readResponse line :=
    if line = "\x7b\"Ack\":\x7b\"message\":\"self muted\"\x7d\x7d" then some .muted
    else if line = "\x7b\"Ack\":\x7b\"message\":\"self unmuted\"\x7d\x7d" then some .unmuted
    else none
  readResponse_text response := by cases response <;> decide

/-- A call, and a program that asks for the same, then for nothing known. -/
def callAndProgram : List (FamilyInput (ControlPeer PlainRequest) (ControlEvent MuteAnswer)) :=
  [.start .program, .start (.call .toggleMuteSelf .sent),
    .member 0 (.send "\"ToggleMuteSelf\""), .member 0 (.send "mute"), .member 0 .read,
    .member 1 .read, .member 0 (.respond .muted true), .member 1 (.respond .unmuted true),
    .member 0 .read, .member 1 .receive, .member 0 .receive]

theorem control_calls_matched_two : ∃ tr connections,
    ControlRun plainJson "127.0.0.1:7767" tr connections ∧
      (controlTally (memberTrace 1 tr)).handled = [.toggleMuteSelf] ∧
      (controlTally (memberTrace 1 tr)).answered = [(.toggleMuteSelf, .unmuted)] := by
  have hrun : (execute (familyStep (ControlConnection.start plainJson "127.0.0.1:7767")
      (ControlConnection.step plainJson)) [] callAndProgram).map (fun r => ((r.2[1]?).map ControlConnection.client, (starts r.1)[1]?)) =
      some (some (.returned (.ok .unmuted)), some (.call .toggleMuteSelf .sent)) := by
    decide +kernel
  obtain ⟨r, hr, hends⟩ := Option.map_eq_some_iff.mp hrun
  obtain ⟨hclient, hpeer⟩ := Prod.mk.inj hends
  obtain ⟨c, hc, hreturned⟩ := Option.map_eq_some_iff.mp hclient
  have htr : ControlRun plainJson "127.0.0.1:7767" r.1 r.2 := execute_trace hr
  obtain ⟨peer, hpeer', _, _, _, hcall⟩ := control_calls_matched htr hc
  rw [hpeer, Option.some.injEq] at hpeer'
  exact ⟨r.1, r.2, htr, (hcall .toggleMuteSelf .sent hpeer'.symm).2 .unmuted hreturned⟩

end Voicers
