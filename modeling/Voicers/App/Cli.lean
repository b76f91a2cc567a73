import Mathlib.Data.List.TakeWhile
import Mathlib.Tactic.Cases
import Mathlib.Tactic.SplitIfs

/-! The command line of the daemon (`cli.rs`). Flags that take a value take the
next argument whatever it is, later ones win, and unknown arguments are skipped. -/

namespace Voicers

structure TurnServerConfig where
  url : String
  username : String
  credential : String
deriving DecidableEq

structure AppConfig where
  controlAddr : String
  listenAddr : String
  relayAddr : Option String
  bootstrapAddrs : List String
  useDefaultBootstrapAddrs : Bool
  stunServers : List String
  turnServers : List TurnServerConfig
  enableStun : Bool
  enableAudioIo : Bool
  enableCaptureInput : Bool
  enableNetworking : Bool
  displayName : String
  statePath : String
deriving DecidableEq

def defaultControlAddr : String := "127.0.0.1:7767"

/-- The path of the state file depends on the environment. -/
def AppConfig.default (defaultStatePath : String) : AppConfig where
  controlAddr := defaultControlAddr
  listenAddr := "/ip4/0.0.0.0/tcp/0"
  relayAddr := none
  bootstrapAddrs := []
  useDefaultBootstrapAddrs := true
  stunServers := []
  turnServers := []
  enableStun := true
  enableAudioIo := true
  enableCaptureInput := true
  enableNetworking := true
  displayName := "local-user"
  statePath := defaultStatePath

/-- `str::splitn(n, ',')`. -/
def splitnComma : Nat → List Char → List String
  | 0, _ => []
  | 1, text => [String.ofList text]
  | n + 2, text =>
    match text.dropWhile (· ≠ ',') with
    | [] => [String.ofList text]
    | _ :: rest => String.ofList (text.takeWhile (· ≠ ',')) :: splitnComma (n + 1) rest

def parseTurnServer (value : String) : Option TurnServerConfig :=
  match splitnComma 3 value.toList with
  | [] => none
  | url :: parts =>
    some { url := url, username := parts[0]?.getD "", credential := parts[1]?.getD "" }

/-- What an argument does: take a value, change a switch, or nothing. -/
inductive CliFlag
  | value (set : String → AppConfig → AppConfig)
  | switch (set : AppConfig → AppConfig)
  | unknown

def cliFlag : String → CliFlag
  | "--control-addr" => .value fun value config => { config with controlAddr := value }
  | "--listen-addr" => .value fun value config => { config with listenAddr := value }
  | "--relay-addr" => .value fun value config => { config with relayAddr := some value }
  | "--bootstrap-addr" =>
    .value fun value config => { config with bootstrapAddrs := config.bootstrapAddrs ++ [value] }
  | "--no-bootstrap" => .switch fun config => { config with useDefaultBootstrapAddrs := false }
  | "--stun-server" =>
    .value fun value config => { config with stunServers := config.stunServers ++ [value] }
  | "--turn-server" =>
    .value fun value config =>
      { config with turnServers := config.turnServers ++ (parseTurnServer value).toList }
  | "--no-stun" => .switch fun config => { config with enableStun := false }
  | "--no-audio" => .switch fun config => { config with enableAudioIo := false }
  | "--no-capture" => .switch fun config => { config with enableCaptureInput := false }
  | "--display-name" => .value fun value config => { config with displayName := value }
  | "--state-path" => .value fun value config => { config with statePath := value }
  | _ => .unknown

/-- The loop of `parse_args`. -/
def parseArgs (config : AppConfig) : List String → AppConfig
  | [] => config
  | [flag] =>
    match cliFlag flag with
    | .switch set => set config
    | _ => config
  | flag :: value :: args =>
    match cliFlag flag with
    | .value set => parseArgs (set value config) args
    | .switch set => parseArgs (set config) (value :: args)
    | .unknown => parseArgs config (value :: args)

def turnServerArg (server : TurnServerConfig) : String :=
  server.url ++ "," ++ server.username ++ "," ++ server.credential

/-- The fields of a TURN server that an argument can name. -/
structure TurnServerConfig.Plain (server : TurnServerConfig) : Prop where
  url : ',' ∉ server.url.toList
  username : ',' ∉ server.username.toList

section

variable {config : AppConfig} {flag value : String} {args : List String}

theorem splitnComma_comma {n : Nat} {first : List Char} (hfirst : ',' ∉ first) (rest : List Char) :
    splitnComma (n + 2) (first ++ ',' :: rest) =
      String.ofList first :: splitnComma (n + 1) rest := by
  have hall : ∀ c ∈ first, (decide (c ≠ ',')) = true := by
    intro c hc
    exact decide_eq_true fun h => hfirst (h ▸ hc)
  have hdrop : (first ++ ',' :: rest).dropWhile (· ≠ ',') = ',' :: rest := by
    rw [List.dropWhile_append_of_pos hall]
    rfl
  have htake : (first ++ ',' :: rest).takeWhile (· ≠ ',') = first := by
    rw [List.takeWhile_append_of_pos hall]
    simp
  rw [splitnComma, hdrop, htake]

theorem not_mem_takeWhile_comma (text : List Char) : ',' ∉ text.takeWhile (· ≠ ',') := by
  intro hcomma
  have hne := List.mem_takeWhile_imp hcomma
  simp at hne

theorem not_mem_of_dropWhile_comma {text : List Char} (h : text.dropWhile (· ≠ ',') = []) :
    ',' ∉ text := by
  intro hcomma
  have hne := List.dropWhile_eq_nil_iff.mp h ',' hcomma
  simp at hne

theorem parseTurnServer_plain {server : TurnServerConfig} (h : parseTurnServer value = some server) :
    server.Plain := by
  unfold parseTurnServer splitnComma at h
  cases hurl : value.toList.dropWhile (· ≠ ',') with
  | nil =>
    simp only [hurl, Option.some.injEq] at h
    subst h
    exact ⟨by simpa using not_mem_of_dropWhile_comma hurl, nofun⟩
  | cons c rest =>
    have hfirst := not_mem_takeWhile_comma value.toList
    unfold splitnComma at h
    cases husername : rest.dropWhile (· ≠ ',') with
    | nil =>
      simp only [hurl, husername, Option.some.injEq] at h
      subst h
      exact ⟨by simpa using hfirst, by simpa using not_mem_of_dropWhile_comma husername⟩
    | cons d credential =>
      simp only [hurl, husername, Option.some.injEq] at h
      subst h
      exact ⟨by simpa using hfirst, by simpa using not_mem_takeWhile_comma rest⟩

theorem parseTurnServer_arg {server : TurnServerConfig} (h : server.Plain) :
    parseTurnServer (turnServerArg server) = some server := by
  have harg : (turnServerArg server).toList =
      server.url.toList ++ ',' :: (server.username.toList ++ ',' :: server.credential.toList) := by
    simp [turnServerArg]
  have hparts : splitnComma 3 (turnServerArg server).toList =
      [server.url, server.username, server.credential] := by
    rw [harg, splitnComma_comma h.url, splitnComma_comma h.username, splitnComma]
    simp only [String.ofList_toList]
  unfold parseTurnServer
  rw [hparts]
  rfl

variable {set : String → AppConfig → AppConfig} {change : AppConfig → AppConfig}

theorem parseArgs_value (h : cliFlag flag = .value set) :
    parseArgs config (flag :: value :: args) = parseArgs (set value config) args := by
  rw [parseArgs, h]

theorem parseArgs_switch (h : cliFlag flag = .switch change) :
    parseArgs config (flag :: args) = parseArgs (change config) args := by
  cases args with
  | nil => simp only [parseArgs, h]
  | cons value args => rw [parseArgs, h]

/-- What arguments can give: networking stays on, and the fields of a TURN
server are what stands between commas. -/
structure AppConfig.Givable (config : AppConfig) : Prop where
  networking : config.enableNetworking = true
  plain : ∀ server ∈ config.turnServers, server.Plain

theorem AppConfig.Givable.withValue (h : config.Givable) (hflag : cliFlag flag = .value set) :
    (set value config).Givable := by
  have hturn : ({ config with
      turnServers := config.turnServers ++ (parseTurnServer value).toList } : AppConfig).Givable := by
    refine ⟨h.networking, fun server hserver => ?_⟩
    rcases List.mem_append.mp hserver with hold | hnew
    · exact h.plain server hold
    · exact parseTurnServer_plain (Option.mem_toList.mp hnew)
  unfold cliFlag at hflag
  split at hflag <;> cases hflag
  all_goals first | exact hturn | exact ⟨h.networking, h.plain⟩

theorem AppConfig.Givable.switched (h : config.Givable) (hflag : cliFlag flag = .switch change) :
    (change config).Givable := by
  unfold cliFlag at hflag
  split at hflag <;> cases hflag
  all_goals exact ⟨h.networking, h.plain⟩

theorem AppConfig.Givable.parseArgs (h : config.Givable) : (parseArgs config args).Givable := by
  fun_induction Voicers.parseArgs config args with
  | case1 config => exact h
  | case2 config flag change hflag => exact h.switched hflag
  | case3 config flag hflag => exact h
  | case4 config flag value args set hflag ih => exact ih (h.withValue hflag)
  | case5 config flag value args change hflag ih => exact ih (h.switched hflag)
  | case6 config flag value args hflag ih => exact ih h

end

/-- Some arguments lead from a configuration to another, whatever follows them. -/
def AppConfig.Gives (config config' : AppConfig) : Prop :=
  ∃ args, ∀ rest, parseArgs config (args ++ rest) = parseArgs config' rest

namespace AppConfig.Gives

variable {config config' config'' : AppConfig} {flag : String}

theorem refl (config : AppConfig) : config.Gives config := ⟨[], fun _ => rfl⟩

theorem trans (h : config.Gives config') (h' : config'.Gives config'') : config.Gives config'' := by
  obtain ⟨args, hargs⟩ := h
  obtain ⟨args', hargs'⟩ := h'
  exact ⟨args ++ args', fun rest => by rw [List.append_assoc, hargs, hargs']⟩

theorem value {set : String → AppConfig → AppConfig} (flag value : String)
    (hflag : cliFlag flag = .value set) : config.Gives (set value config) :=
  ⟨[flag, value], fun _ => parseArgs_value hflag⟩

theorem optional (field : Option String → AppConfig)
    (hset : ∀ value, (field none).Gives (field (some value))) (value : Option String) :
    (field none).Gives (field value) := by
  cases value with
  | none => exact refl _
  | some value => exact hset value

/-- A switch is given when it has to change something. -/
theorem switch {change : AppConfig → AppConfig} (flag : String) (hflag : cliFlag flag = .switch change)
    (field : Bool → AppConfig) (hchange : change (field true) = field false) (on : Bool) :
    (field true).Gives (field on) := by
  cases on with
  | true => exact refl _
  | false =>
    exact ⟨[flag], fun _ => by rw [List.singleton_append, parseArgs_switch hflag, hchange]⟩

/-- What takes one more item each time takes them all. -/
theorem items {α : Type} (add : List α → AppConfig) (items : List α)
    (hadd : ∀ done, ∀ item ∈ items, (add done).Gives (add (done ++ [item]))) (done : List α) :
    (add done).Gives (add (done ++ items)) := by
  induction items generalizing done with
  | nil => exact (List.append_nil done).symm ▸ refl _
  | cons item items ih =>
    have hfirst := hadd done item List.mem_cons_self
    have hrest := ih (fun done other hother => hadd done other (List.mem_cons_of_mem _ hother))
      (done ++ [item])
    rw [List.append_assoc, List.singleton_append] at hrest
    exact hfirst.trans hrest

theorem of_givable (h : config.Givable) (statePath : String) :
    (AppConfig.default statePath).Gives config := by
  let given (relay : Option String) (addrs stuns : List String) (turns : List TurnServerConfig)
      (bootstrap stun audio capture : Bool) : AppConfig :=
    { config with
      relayAddr := relay, bootstrapAddrs := addrs, stunServers := stuns, turnServers := turns
      useDefaultBootstrapAddrs := bootstrap, enableStun := stun, enableAudioIo := audio
      enableCaptureInput := capture, enableNetworking := true }
  have hnamed : (AppConfig.default statePath).Gives (given none [] [] [] true true true true) :=
    ((value "--control-addr" config.controlAddr rfl).trans
      (value "--listen-addr" config.listenAddr rfl)).trans
      ((value "--display-name" config.displayName rfl).trans
        (value "--state-path" config.statePath rfl))
  have hrelay := optional (given · [] [] [] true true true true)
    (fun addr => value "--relay-addr" addr rfl) config.relayAddr
  have haddrs := items (given config.relayAddr · [] [] true true true true)
    config.bootstrapAddrs (fun _ addr _ => value "--bootstrap-addr" addr rfl) []
  have hstuns := items (given config.relayAddr config.bootstrapAddrs · [] true true true true)
    config.stunServers (fun _ server _ => value "--stun-server" server rfl) []
  have hturns := items
    (given config.relayAddr config.bootstrapAddrs config.stunServers · true true true true)
    config.turnServers (fun done server hserver => by
      have harg : (given config.relayAddr config.bootstrapAddrs config.stunServers done true true true
          true).Gives _ := value "--turn-server" (turnServerArg server) rfl
      rw [parseTurnServer_arg (h.plain server hserver)] at harg
      exact harg) []
  let listed := given config.relayAddr config.bootstrapAddrs config.stunServers config.turnServers
  have hbootstrap := switch "--no-bootstrap" rfl (listed · true true true) rfl
    config.useDefaultBootstrapAddrs
  have hstun := switch "--no-stun" rfl (listed config.useDefaultBootstrapAddrs · true true) rfl
    config.enableStun
  have haudio := switch "--no-audio" rfl
    (listed config.useDefaultBootstrapAddrs config.enableStun · true) rfl config.enableAudioIo
  have hcapture := switch "--no-capture" rfl
    (listed config.useDefaultBootstrapAddrs config.enableStun config.enableAudioIo ·) rfl
    config.enableCaptureInput
  have hall : listed config.useDefaultBootstrapAddrs config.enableStun config.enableAudioIo
      config.enableCaptureInput = config := by
    simp only [listed, given, ← h.networking]
  rw [hall] at hcapture
  exact ((((hnamed.trans hrelay).trans haddrs).trans hstuns).trans hturns).trans
    (((hbootstrap.trans hstun).trans haudio).trans hcapture)

end AppConfig.Gives

/-- The configurations a command line can give. -/
theorem parseArgs_range {config : AppConfig} (statePath : String) :
    (∃ args, parseArgs (.default statePath) args = config) ↔ config.Givable := by
  constructor
  · rintro ⟨args, rfl⟩
    exact AppConfig.Givable.parseArgs ⟨rfl, nofun⟩
  · intro h
    obtain ⟨args, hargs⟩ := AppConfig.Gives.of_givable h statePath
    exact ⟨args ++ [], hargs []⟩

end Voicers
