import Mathlib
import BrainEval.Lib.Decimal
import BrainEval.Lib.Polling
import BrainEval.Lib.Str

set_option autoImplicit false

namespace BrainEval

open RustStr Polling

-- `std::env::var`, where it is set.
abbrev Env := String → Option String

structure SocketAddr where
  ip : String
  port : UInt16
  deriving DecidableEq

structure DockerServerOpts where
  imageTag : String
  containerName : String
  dataPort : UInt16
  metricsPort : UInt16
  adminPort : UInt16
  rerank : Bool
  modelsVolume : String
  arenaCapacity : String
  dataVolume : Option String
  healthTimeout : Nat

inductive Backing where
  | external
  | container (name : String)
  deriving DecidableEq

structure ServerHandle where
  endpoint : SocketAddr
  metrics : SocketAddr
  backing : Backing
  adminBase : String
  adminSecret : String
  «namespace» : String
  keep : Bool
  deriving DecidableEq

inductive ServerError where
  | docker (context detail : String)
  | healthTimeout (timeout : Nat) (logTail : String)
  | containerExited (code logTail : String)
  | badEndpoint (raw : String)
  | io (detail : String)
  deriving DecidableEq

namespace Server

def evalAdminSecret : String := "eval-admin-secret"

def envAdminSecret : String := "BRAIN_EVAL_ADMIN_SECRET"

def envAdminPort : String := "BRAIN_EVAL_ADMIN_PORT"

def envNamespace : String := "BRAIN_EVAL_NAMESPACE"

def envMetricsPort : String := "BRAIN_EVAL_METRICS_PORT"

def defaultAdminPort : UInt16 := 9092

def defaultMetricsPort : UInt16 := 9091

def defaultNamespace : String := "eval"

def modelsMount : String := "/xdg/brain/models"

def xdgEnv : String := "XDG_DATA_HOME=/xdg"

def embedDirEnv : String := "BRAIN_EMBED_MODEL_DIR=/xdg/brain/models/bge-small-en-v1.5"

def rerankDirEnv : String := "BRAIN_RERANK_MODEL_DIR=/xdg/brain/models/bge-reranker-base"

def apiKey : String := "BRAIN__LLM__API_KEY"

def serviceKey : String := "BRAIN__LLM__BROKER__SERVICE_KEY"

def brokerUrl : String := "BRAIN__LLM__BROKER__URL"

section Args

variable (env : Env)

def nonempty (keys : List String) : List (String × String) :=
  keys.filterMap fun key => ((env key).filter (· != "")).map fun v => (key, v)

def brokerConfigured : Bool := ((env brokerUrl).map (· != "")).getD false

def secretEnv : List (String × String) :=
  nonempty env (if brokerConfigured env then [serviceKey] else [apiKey, serviceKey])

def extraEnv : List String :=
  (nonempty env ["BRAIN__LLM__MODEL", "BRAIN_LOG", brokerUrl]).map fun (key, v) => key ++ "=" ++ v

def portMap (port : UInt16) (inner : String) : String := toString port.toNat ++ ":" ++ inner

def runArgs (opts : DockerServerOpts) (envFile : Option String) : List String :=
  ["run", "-d", "--name", opts.containerName, "--add-host", "host.docker.internal:host-gateway",
    "--security-opt", "seccomp=unconfined", "--ulimit", "memlock=-1",
    "-p", portMap opts.dataPort "8080", "-p", portMap opts.metricsPort "9091",
    "-p", portMap opts.adminPort "9092",
    "-v", opts.modelsVolume ++ ":" ++ modelsMount ++ ":ro"] ++
  (opts.dataVolume.elim [] fun v => ["-v", v ++ ":/var/lib/brain/data"]) ++
  ["-e", xdgEnv, "-e", embedDirEnv, "-e", "BRAIN__RERANK__ENABLED=" ++ toString opts.rerank,
    "-e", "BRAIN__EXTRACTORS__HYPE__NUM_QUESTIONS=6",
    "-e", "BRAIN__SHARD__ARENA_CAPACITY_BYTES=" ++ opts.arenaCapacity,
    "-e", "BRAIN__SERVER__ADMIN_ADDR=0.0.0.0:9092",
    "-e", "BRAIN__ADMIN__TOKEN=" ++ evalAdminSecret] ++
  ((extraEnv env).flatMap fun e => ["-e", e]) ++
  (if opts.rerank then ["-e", rerankDirEnv] else []) ++
  (envFile.elim [] fun path => ["--env-file", path]) ++
  ["brain:" ++ opts.imageTag]

end Args

/-- One round of the wait: what the inspections answer, whether the deadline has passed after them,
and the tail of the container's log. -/
structure Round where
  health : Except ServerError String
  state : Except ServerError String
  exitCode : Except ServerError String
  late : Bool
  logTail : String

def trimmed (answer : Except ServerError String) (otherwise : String) : String :=
  match answer with
  | .ok out => trim out
  | .error _ => otherwise

def inspect (what name : String) : List String :=
  ["inspect", "-f", "\x7b\x7b.State." ++ what ++ "\x7d\x7d", name]

def logs (name : String) : List String := ["logs", "--tail", "40", name]

def remove (name : String) : List String := ["rm", "-fv", name]

-- A round of `wait_healthy` with the docker calls so far; the error is its return.
def waitRound (name : String) (timeout : Nat) (calls : List (List String)) (r : Round) :
    Except (Except ServerError Unit × List (List String)) (List (List String)) :=
  let calls := calls ++ [inspect "Health.Status" name]
  if trimmed r.health "" = "healthy" then .error (.ok (), calls)
  else
    let calls := calls ++ [inspect "Status" name]
    let state := trimmed r.state ""
    if state = "exited" ∨ state = "dead" then
      .error (.error (.containerExited (trimmed r.exitCode "?") r.logTail),
        calls ++ [inspect "ExitCode" name, logs name])
    else if r.late then .error (.error (.healthTimeout timeout r.logTail), calls ++ [logs name])
    else .ok calls

def waitHealthy (name : String) (timeout : Nat) (rounds : List Round) :
    Except (Except ServerError Unit × List (List String)) (List (List String)) :=
  rounds.foldlM (waitRound name timeout) []

-- What `start_docker` meets.
structure World where
  envFile : Except String String
  run : Except ServerError String
  rounds : List Round

/-- The docker calls, the lines of the file of secrets, and the result, if it has come. -/
structure Boot where
  calls : List (List String)
  written : List (String × String)
  result : Option (Except ServerError ServerHandle)

def localhost (port : UInt16) : SocketAddr := ⟨"127.0.0.1", port⟩

def handleOf (opts : DockerServerOpts) : ServerHandle where
  endpoint := localhost opts.dataPort
  metrics := localhost opts.metricsPort
  backing := .container opts.containerName
  adminBase := "http://127.0.0.1:" ++ toString opts.adminPort.toNat
  adminSecret := evalAdminSecret
  «namespace» := defaultNamespace
  keep := false

def secretFile (env : Env) (w : World) : Except String (Option String) :=
  if (secretEnv env).isEmpty then .ok none else w.envFile.map some

def startDocker (opts : DockerServerOpts) (env : Env) (w : World) : Boot :=
  let stale := remove opts.containerName
  let secrets := secretEnv env
  match secretFile env w with
  | .error e => ⟨[stale], [], some (.error (.io e))⟩
  | .ok file =>
    let started := [stale, runArgs env opts file]
    match w.run with
    | .error e => ⟨started, secrets, some (.error e)⟩
    | .ok _ =>
      match waitHealthy opts.containerName opts.healthTimeout w.rounds with
      | .error (.ok _, calls) => ⟨started ++ calls, secrets, some (.ok (handleOf opts))⟩
      -- the handle is dropped on the way out
      | .error (.error e, calls) =>
        ⟨started ++ calls ++ [remove opts.containerName], secrets, some (.error e)⟩
      | .ok calls => ⟨started ++ calls, secrets, none⟩

section Wait

variable (name : String) (timeout : Nat)

def Round.Exited (r : Round) : Prop := trimmed r.state "" = "exited" ∨ trimmed r.state "" = "dead"

instance (r : Round) : Decidable r.Exited := inferInstanceAs (Decidable (_ ∨ _))

def Round.Decides (r : Round) : Prop :=
  trimmed r.health "" = "healthy" ∨ r.Exited ∨ r.late = true

-- How it ends it: a healthy server is taken even late, and a dead one is told apart from a slow one
-- even late.
def Round.verdict (r : Round) : Except ServerError Unit :=
  if trimmed r.health "" = "healthy" then .ok ()
  else if r.Exited then .error (.containerExited (trimmed r.exitCode "?") r.logTail)
  else .error (.healthTimeout timeout r.logTail)

def Round.lastCalls (r : Round) : List (List String) :=
  [inspect "Health.Status" name] ++
    if trimmed r.health "" = "healthy" then []
    else [inspect "Status" name] ++
      (if r.Exited then [inspect "ExitCode" name] else []) ++ [logs name]

def pollCalls (rounds : List Round) : List (List String) :=
  rounds.flatMap fun _ => [inspect "Health.Status" name, inspect "Status" name]

theorem waitRound_decides : Polling.Decides (waitRound name timeout) [] (fun _ => True)
    (fun before calls => calls = pollCalls name before) (fun _ r => r.Decides)
    fun before r => (r.verdict timeout, pollCalls name before ++ r.lastCalls name) where
  init := rfl
  keeps := by
    rintro before _ r - rfl going
    simp only [Round.Decides, not_or, Bool.not_eq_true] at going
    obtain ⟨sick, alive, early⟩ := going
    refine ⟨_, ?_, rfl⟩
    have running : ¬ (trimmed r.state "" = "exited" ∨ trimmed r.state "" = "dead") := alive
    simp only [waitRound, if_neg sick, if_neg running, early]
    simp [pollCalls]
  returns := by
    rintro before _ r - rfl decided
    by_cases well : trimmed r.health "" = "healthy"
    next => simp [waitRound, Round.verdict, Round.lastCalls, well]
    next =>
      by_cases gone : r.Exited
      next =>
        have exited : trimmed r.state "" = "exited" ∨ trimmed r.state "" = "dead" := gone
        simp [waitRound, Round.verdict, Round.lastCalls, well, gone, exited]
      next =>
        have running : ¬ (trimmed r.state "" = "exited" ∨ trimmed r.state "" = "dead") := gone
        have late : r.late = true := (decided.resolve_left well).resolve_left gone
        simp [waitRound, Round.verdict, Round.lastCalls, well, gone, running, late]

theorem waitHealthy_returns_iff {rounds : List Round} {result : Except ServerError Unit} :
    (∃ calls, waitHealthy name timeout rounds = .error (result, calls)) ↔
      ∃ (t : Nat) (r : Round), rounds[t]? = some r ∧ r.Decides ∧ result = r.verdict timeout ∧
        ∀ u < t, ∀ earlier : Round, rounds[u]? = some earlier → ¬ earlier.Decides := by
  simp only [waitHealthy, foldlM_error_iff,
    (waitRound_decides name timeout).returnsAt_iff fun _ _ => trivial]
  constructor
  · rintro ⟨calls, t, r, here, decided, told, first⟩
    exact ⟨t, r, here, decided, (Prod.mk.inj told).1, first⟩
  · rintro ⟨t, r, here, decided, rfl, first⟩
    exact ⟨_, t, r, here, decided, rfl, first⟩

def waitingCalls : List (List String) :=
  [inspect "Health.Status" name, inspect "Status" name, inspect "ExitCode" name, logs name]

theorem pollCalls_subset (rounds : List Round) : pollCalls name rounds ⊆ waitingCalls name := by
  intro call member
  obtain ⟨r, -, listed⟩ := List.mem_flatMap.mp member
  simp only [List.mem_cons, List.not_mem_nil, or_false] at listed
  rcases listed with rfl | rfl <;> simp [waitingCalls]

theorem lastCalls_subset (r : Round) : r.lastCalls name ⊆ waitingCalls name := by
  intro call member
  rw [Round.lastCalls] at member
  split at member
  · simp only [List.append_nil, List.mem_singleton] at member
    simp [waitingCalls, member]
  · split at member <;>
      · simp only [List.cons_append, List.nil_append, List.mem_cons,
          List.not_mem_nil, or_false] at member
        rcases member with rfl | rfl | rfl | rfl <;> simp [waitingCalls]

variable {name timeout} in
theorem waiting_subset {rounds : List Round} {calls : List (List String)}
    (waiting : waitHealthy name timeout rounds = .ok calls) : calls ⊆ waitingCalls name := by
  rcases (waitRound_decides name timeout).run rounds fun _ _ => trivial with
    ⟨calls', reached, known, -⟩ | ⟨⟨b, returned⟩, -⟩
  · obtain rfl : calls' = calls := Except.ok.inj (reached.symm.trans waiting)
    rw [known]
    exact pollCalls_subset name rounds
  · cases waiting.symm.trans returned

variable {name timeout} in
theorem returned_subset {rounds : List Round} {calls : List (List String)}
    {result : Except ServerError Unit}
    (returned : waitHealthy name timeout rounds = .error (result, calls)) :
    calls ⊆ waitingCalls name := by
  obtain ⟨t, at_t⟩ := (foldlM_error_iff _).mp returned
  obtain ⟨r, -, -, told, -⟩ :=
    ((waitRound_decides name timeout).returnsAt_iff fun _ _ => trivial).mp at_t
  obtain ⟨-, rfl⟩ := Prod.mk.inj told
  exact List.append_subset.mpr ⟨pollCalls_subset name _, lastCalls_subset name r⟩

end Wait

section Cases

variable (opts : DockerServerOpts) (env : Env) (w : World)

def startCalls (file : Option String) : List (List String) :=
  [remove opts.containerName, runArgs env opts file]

-- All that a boot can come to.
inductive Booted : Boot → Prop where
  | unwritten {e : String} (file : secretFile env w = .error e) :
      Booted ⟨[remove opts.containerName], [], some (.error (.io e))⟩
  | refused {path : Option String} {e : ServerError} (file : secretFile env w = .ok path)
      (ran : w.run = .error e) : Booted ⟨startCalls opts env path, secretEnv env, some (.error e)⟩
  | waiting {path : Option String} {out : String} {calls : List (List String)}
      (file : secretFile env w = .ok path) (ran : w.run = .ok out)
      (waited : waitHealthy opts.containerName opts.healthTimeout w.rounds = .ok calls) :
      Booted ⟨startCalls opts env path ++ calls, secretEnv env, none⟩
  | failed {path : Option String} {out : String} {calls : List (List String)} {e : ServerError}
      (file : secretFile env w = .ok path) (ran : w.run = .ok out)
      (waited : waitHealthy opts.containerName opts.healthTimeout w.rounds =
        .error (.error e, calls)) :
      Booted ⟨startCalls opts env path ++ calls ++ [remove opts.containerName], secretEnv env,
        some (.error e)⟩
  | healthy {path : Option String} {out : String} {calls : List (List String)}
      (file : secretFile env w = .ok path) (ran : w.run = .ok out)
      (waited : waitHealthy opts.containerName opts.healthTimeout w.rounds =
        .error (.ok (), calls)) :
      Booted ⟨startCalls opts env path ++ calls, secretEnv env, some (.ok (handleOf opts))⟩

theorem startDocker_booted : Booted opts env w (startDocker opts env w) := by
  rw [startDocker]
  cases file : secretFile env w with
  | error e => exact .unwritten file
  | ok path =>
    cases ran : w.run with
    | error e => exact .refused file ran
    | ok out =>
      cases waited : waitHealthy opts.containerName opts.healthTimeout w.rounds with
      | ok calls => exact .waiting file ran waited
      | error returned =>
        obtain ⟨result, calls⟩ := returned
        cases result with
        | error e => exact .failed file ran waited
        | ok _ => exact .healthy file ran waited

end Cases

section Secrets

variable {env env' : Env}

def secretKeys : List String := [apiKey, serviceKey]

/-- Two environments that differ in the values of the secrets only, and not in which are empty. -/
structure AgreeButSecrets (env env' : Env) : Prop where
  others : ∀ key, key ∉ secretKeys → env key = env' key
  given : ∀ key ∈ secretKeys,
    ((env key).filter (· != "")).isSome = ((env' key).filter (· != "")).isSome

theorem nonempty_congr {keys : List String} (same : ∀ key ∈ keys, env key = env' key) :
    nonempty env keys = nonempty env' keys := by
  unfold nonempty
  exact List.filterMap_congr fun key member => by rw [same key member]

theorem AgreeButSecrets.public (agree : AgreeButSecrets env env') {keys : List String}
    (open_keys : ∀ key ∈ keys, key ∉ secretKeys) : nonempty env keys = nonempty env' keys :=
  nonempty_congr fun key member => agree.others key (open_keys key member)

theorem AgreeButSecrets.broker (agree : AgreeButSecrets env env') :
    brokerConfigured env = brokerConfigured env' := by
  rw [brokerConfigured, brokerConfigured, agree.others brokerUrl (by decide)]

theorem nonempty_isEmpty (env : Env) (keys : List String) : (nonempty env keys).isEmpty =
    keys.all fun key => !((env key).filter (· != "")).isSome := by
  induction keys with
  | nil => rfl
  | cons key keys ih =>
    rw [List.all_cons, ← ih, nonempty, List.filterMap_cons]
    cases (env key).filter (· != "") <;> simp [nonempty]

theorem AgreeButSecrets.isEmpty (agree : AgreeButSecrets env env') :
    (secretEnv env).isEmpty = (secretEnv env').isEmpty := by
  have service := agree.given serviceKey (by decide)
  have api := agree.given apiKey (by decide)
  rw [secretEnv, secretEnv, ← agree.broker]
  split <;> simp only [nonempty_isEmpty, List.all_cons, List.all_nil, service, api]

theorem AgreeButSecrets.runArgs (agree : AgreeButSecrets env env') (opts : DockerServerOpts)
    (envFile : Option String) : runArgs env opts envFile = runArgs env' opts envFile := by
  have extra : extraEnv env = extraEnv env' := by
    rw [extraEnv, extraEnv, agree.public (by decide)]
  rw [Server.runArgs, Server.runArgs, extra]

theorem mem_secretEnv_of_written {opts : DockerServerOpts} {w : World} {line : String × String}
    (member : line ∈ (startDocker opts env w).written) : line ∈ secretEnv env := by
  have booted := startDocker_booted opts env w
  generalize startDocker opts env w = boot at member booted
  cases booted with
  | unwritten file => cases member
  | _ => exact member

theorem mem_calls_of_startDocker {opts : DockerServerOpts} {w : World} {call : List String}
    (member : call ∈ (startDocker opts env w).calls) :
    call ∈ remove opts.containerName :: waitingCalls opts.containerName ∨
      ∃ file, secretFile env w = .ok file ∧ call = Server.runArgs env opts file := by
  have started {path : Option String} (file : secretFile env w = .ok path)
      {calls : List (List String)} (asked : calls ⊆ waitingCalls opts.containerName)
      (listed : call ∈ startCalls opts env path ++ calls) :
      call ∈ remove opts.containerName :: waitingCalls opts.containerName ∨
        ∃ file, secretFile env w = .ok file ∧ call = Server.runArgs env opts file := by
    simp only [startCalls, List.cons_append, List.nil_append, List.mem_cons] at listed
    rcases listed with rfl | rfl | later
    · exact .inl List.mem_cons_self
    · exact .inr ⟨path, file, rfl⟩
    · exact .inl (List.mem_cons_of_mem _ (asked later))
  have booted := startDocker_booted opts env w
  generalize startDocker opts env w = boot at member booted
  cases booted with
  | unwritten file => exact .inl (List.mem_singleton.mp member ▸ List.mem_cons_self)
  | refused file ran => exact started file (List.nil_subset _) (List.mem_append_left _ member)
  | waiting file ran waited => exact started file (waiting_subset waited) member
  | failed file ran waited =>
    rcases List.mem_append.mp member with earlier | removed
    · exact started file (returned_subset waited) earlier
    · exact .inl (List.mem_singleton.mp removed ▸ List.mem_cons_self)
  | healthy file ran waited => exact started file (returned_subset waited) member

def brokeredEnv (key : String) : Env := fun name =>
  if name = brokerUrl then some "http://host.docker.internal:9099"
  else if name = apiKey then some key
  else if name = serviceKey then some "svc-1"
  else none

def plainOpts : DockerServerOpts where
  imageTag := "latest"
  containerName := "brain-eval-server"
  dataPort := 18080
  metricsPort := 19091
  adminPort := 19092
  rerank := false
  modelsVolume := "brain-models"
  arenaCapacity := "256MiB"
  dataVolume := none
  healthTimeout := 120

theorem brokeredEnv_agree : AgreeButSecrets (brokeredEnv "sk-1") (brokeredEnv "sk-2") where
  others key other := by
    have notKey : key ≠ apiKey := fun same => other (by simp [secretKeys, same])
    simp [brokeredEnv, notKey]
  given key listed := by
    simp only [secretKeys, List.mem_cons, List.not_mem_nil, or_false] at listed
    rcases listed with rfl | rfl <;> decide

end Secrets

section Lifecycle

-- How the handle of a session ends. `stop` consumes it, and so drops it too.
inductive Ending where
  | dropped
  | stopped
  | stoppedGracefully

def dropCalls (h : ServerHandle) : List (List String) :=
  if h.keep then []
  else
    match h.backing with
    | .container name => [remove name]
    | .external => []

def stopCalls (h : ServerHandle) : List (List String) := dropCalls h

def stopGracefulCalls (h : ServerHandle) : List (List String) :=
  if h.keep then []
  else
    match h.backing with
    | .container name => [["stop", name], remove name]
    | .external => []

def endCalls (h : ServerHandle) : Ending → List (List String)
  | .dropped => dropCalls h
  | .stopped => stopCalls h ++ dropCalls h
  | .stoppedGracefully => stopGracefulCalls h ++ dropCalls h

-- A server is booted, `keep_alive` is called on its handle or not, and the handle ends.
def sessionCalls (opts : DockerServerOpts) (env : Env) (w : World) (keep : Bool) (e : Ending) :
    List (List String) :=
  let boot := startDocker opts env w
  boot.calls ++
    match boot.result with
    | some (.ok h) => endCalls { h with keep := keep } e
    | _ => []

/-- What docker makes of the commands it is given, as far as one container goes: whether it is there
after them. Looking at a container or stopping it keeps it. -/
structure Docker (name : String) where
  there : List (List String) → Bool
  keeps : ∀ calls call, call ∈ ["stop", name] :: waitingCalls name →
    there (calls ++ [call]) = there calls

variable {name : String}

theorem Docker.there_append (docker : Docker name) {calls rest : List (List String)}
    (kept : rest ⊆ ["stop", name] :: waitingCalls name) :
    docker.there (calls ++ rest) = docker.there calls := by
  induction rest using List.reverseRecOn with
  | nil => rw [List.append_nil]
  | append_singleton rest call ih =>
    obtain ⟨earlier, last⟩ := List.append_subset.mp kept
    rw [← List.append_assoc, docker.keeps _ call (last (List.mem_singleton_self call)), ih earlier]

-- Every removal among these commands is carried out.
def Docker.Removes (docker : Docker name) (calls : List (List String)) : Prop :=
  ∀ earlier later, calls = earlier ++ remove name :: later →
    docker.there (earlier ++ [remove name]) = false

theorem Docker.Removes.last {docker : Docker name} {calls : List (List String)}
    (removes : docker.Removes (calls ++ [remove name])) :
    docker.there (calls ++ [remove name]) = false :=
  removes calls [] rfl

variable (opts : DockerServerOpts) (env : Env) (w : World) (keep : Bool) (e : Ending)

theorem endCalls_kept (h : ServerHandle) : endCalls { h with keep := true } e = [] := by
  cases e <;> rfl

-- A handle that was not told to keep its container removes it last of all.
theorem endCalls_removes : ∃ earlier,
    endCalls { handleOf opts with keep := false } e = earlier ++ [remove opts.containerName] := by
  cases e with
  | dropped => exact ⟨[], rfl⟩
  | stopped => exact ⟨[remove opts.containerName], rfl⟩
  | stoppedGracefully =>
    exact ⟨[["stop", opts.containerName], remove opts.containerName], rfl⟩

variable {opts env w keep e} in
theorem container_left_iff {docker : Docker opts.containerName}
    (removes : docker.Removes (sessionCalls opts env w keep e))
    (runs : ∀ file out, secretFile env w = .ok file → w.run = .ok out →
      docker.there [remove opts.containerName, runArgs env opts file] = true) :
    docker.there (sessionCalls opts env w keep e) = true ↔
      ∃ file, secretFile env w = .ok file ∧
        ((∃ err, w.run = .error err) ∧
            docker.there [remove opts.containerName, runArgs env opts file] = true ∨
          (∃ out, w.run = .ok out) ∧
            ((∃ calls, waitHealthy opts.containerName opts.healthTimeout w.rounds = .ok calls) ∨
              keep = true ∧ ∃ calls, waitHealthy opts.containerName opts.healthTimeout w.rounds =
                .error (.ok (), calls))) := by
  have still {path : Option String} {out : String} {calls : List (List String)}
      (file : secretFile env w = .ok path) (ran : w.run = .ok out)
      (asked : calls ⊆ waitingCalls opts.containerName) :
      docker.there (startCalls opts env path ++ calls) = true := by
    rw [docker.there_append (List.subset_cons_of_subset _ asked)]
    exact runs path out file ran
  have booted := startDocker_booted opts env w
  rw [sessionCalls] at removes ⊢
  generalize startDocker opts env w = boot at removes booted ⊢
  cases booted with
  | unwritten file =>
    simp only [file, reduceCtorEq, false_and, exists_false, iff_false, Bool.not_eq_true]
    exact removes [] [] rfl
  | refused file ran => simp [file, ran, startCalls]
  | waiting file ran waited =>
    have left := still file ran (waiting_subset waited)
    simp [file, ran, waited, left]
  | failed file ran waited =>
    simp only [List.append_nil] at removes ⊢
    rw [removes.last]
    simp [file, ran, waited]
  | healthy file ran waited =>
    have left := still file ran (returned_subset waited)
    cases keep with
    | true =>
      simp only [endCalls_kept, List.append_nil, left]
      simp [file, ran, waited]
    | false =>
      obtain ⟨earlier, ending⟩ := endCalls_removes opts e
      simp only [ending, ← List.append_assoc] at removes ⊢
      rw [removes.last]
      simp [file, ran, waited]

-- A docker that does as it is told, and whose run leaves a container even where it fails.
def Docker.obedient (name : String) : Docker name where
  there calls := calls.foldl (fun there call =>
    if call.head? = some "run" then true else if call = remove name then false else there) false
  keeps calls call kept := by
    have idle : call.head? ≠ some "run" ∧ call ≠ remove name := by
      simp only [waitingCalls, List.mem_cons, List.not_mem_nil, or_false] at kept
      rcases kept with rfl | rfl | rfl | rfl | rfl <;> simp [inspect, logs, remove]
    rw [List.foldl_append]
    simp [idle]

theorem Docker.obedient_removes (name : String) (calls : List (List String)) :
    (Docker.obedient name).Removes calls := by
  intro earlier later _
  simp [Docker.obedient, remove]

-- The port is taken: docker has made the container and does not start it.
theorem refused_run_leaves_container :
    (Docker.obedient plainOpts.containerName).there (sessionCalls plainOpts (brokeredEnv "sk-1")
      ⟨.ok "/tmp/env", .error (.docker "run" "port is already allocated"), []⟩ false .dropped) =
        true :=
  (container_left_iff (Docker.obedient_removes _ _) (by simp)).mpr
    ⟨some "/tmp/env", by decide, .inl ⟨⟨_, rfl⟩, by decide⟩⟩

end Lifecycle

section Credentials

structure KeyMinter where
  adminBase : String
  adminSecret : String
  «namespace» : String
  deriving DecidableEq

-- `parse::<u16>`.
def parsePort (s : String) : Option UInt16 :=
  (fromStrRadix 10 (2 ^ 16 - 1) s.toList).map UInt16.ofNat

def KeyMinter.fromExternalEnv (env : Env) (dataPlane : SocketAddr) : KeyMinter where
  adminBase := "http://" ++ dataPlane.ip ++ ":" ++
    toString (((env envAdminPort).bind parsePort).getD defaultAdminPort).toNat
  adminSecret := (env envAdminSecret).getD ""
  «namespace» := (env envNamespace).getD defaultNamespace

def metricsAddrFromEnv (env : Env) (dataPlane : SocketAddr) : SocketAddr :=
  ⟨dataPlane.ip, ((env envMetricsPort).bind parsePort).getD defaultMetricsPort⟩

def keyMinter (h : ServerHandle) : KeyMinter := ⟨h.adminBase, h.adminSecret, h.namespace⟩

-- `std::env::set_var`.
def setVar (env : Env) (key value : String) : Env := fun k => if k = key then some value else env k

def publishEnvCredentials (h : ServerHandle) (adminPort metricsPort : UInt16) (env : Env) : Env :=
  setVar (setVar (setVar (setVar env envAdminSecret evalAdminSecret)
    envAdminPort (toString adminPort.toNat)) envNamespace h.namespace)
    envMetricsPort (toString metricsPort.toNat)

theorem toDigit_of_isDigit {c : Char} (digit : c.isDigit = true) :
    toDigit 10 c = some (c.toNat - '0'.toNat) := by
  have range := Decimal.isDigit_range digit
  have zero : '0'.toNat = 48 := rfl
  have nine : '9'.toNat = 57 := rfl
  have inside : '0'.toNat ≤ c.toNat ∧ c.toNat ≤ '9'.toNat := by omega
  simp only [toDigit, if_pos inside]
  rw [if_pos (by omega)]

theorem radixValue_of_allDigits {digits : List Char} (all : Decimal.AllDigits digits) {bound : Nat}
    (within : Decimal.value digits ≤ bound) :
    radixValue 10 bound digits = some (Decimal.value digits) := by
  have from_value (front rest : List Char) (all : Decimal.AllDigits rest)
      (within : Decimal.value (front ++ rest) ≤ bound) :
      rest.foldlM (fun value c => do
        let next := value * 10 + (← toDigit 10 c)
        if next ≤ bound then some next else none) (Decimal.value front) =
          some (Decimal.value (front ++ rest)) := by
    induction rest generalizing front with
    | nil => simp
    | cons c rest ih =>
      obtain ⟨digit, others⟩ := List.forall_mem_cons.mp all
      have next : Decimal.value (front ++ [c]) =
          Decimal.value front * 10 + (c.toNat - '0'.toNat) := by
        rw [Decimal.value_append, Decimal.value_cons]
        simp [Decimal.value, Nat.mul_comm]
      have whole : front ++ c :: rest = front ++ [c] ++ rest := by simp
      have fits : Decimal.value (front ++ [c]) ≤ bound := by
        rw [whole, Decimal.value_append] at within
        have grows : Decimal.value (front ++ [c]) ≤
            10 ^ rest.length * Decimal.value (front ++ [c]) := Nat.le_mul_of_pos_left _ (by positivity)
        omega
      rw [whole] at within ⊢
      rw [List.foldlM_cons, toDigit_of_isDigit digit]
      simp only [Option.bind_eq_bind, Option.bind_some, ← next, if_pos fits]
      exact ih (front ++ [c]) others within
  exact from_value [] digits all within

theorem fromStrRadix_of_allDigits {digits : List Char} (some_digit : digits ≠ [])
    (all : Decimal.AllDigits digits) {radix bound : Nat} :
    fromStrRadix radix bound digits = radixValue radix bound digits := by
  have unsigned : '+' ∉ digits := fun member => absurd (all '+' member) (by decide)
  unfold fromStrRadix
  split
  next => exact absurd rfl some_digit
  next => simp at unsigned
  next => simp at unsigned
  next => rfl

theorem parsePort_repr (p : UInt16) : parsePort p.toNat.repr = some p := by
  have digits : p.toNat.repr.toList = Nat.toDigits 10 p.toNat := by simp
  have all := Decimal.allDigits_toDigits p.toNat
  have read : radixValue 10 (2 ^ 16 - 1) (Nat.toDigits 10 p.toNat) = some p.toNat := by
    have within : Decimal.value (Nat.toDigits 10 p.toNat) ≤ 2 ^ 16 - 1 := by
      rw [Decimal.value_toDigits]
      have less := p.toNat_lt
      omega
    rw [radixValue_of_allDigits all within, Decimal.value_toDigits]
  rw [parsePort, digits, fromStrRadix_of_allDigits Nat.toDigits_ne_nil all, read]
  simp

theorem published_credentials_agree (opts : DockerServerOpts) (env : Env) :
    let published := publishEnvCredentials (handleOf opts) opts.adminPort opts.metricsPort env
    KeyMinter.fromExternalEnv published (handleOf opts).endpoint = keyMinter (handleOf opts) ∧
      metricsAddrFromEnv published (handleOf opts).endpoint = (handleOf opts).metrics ∧
      secretEnv published = secretEnv env := by
  intro published
  have adminPort : published envAdminPort = some (toString opts.adminPort.toNat) := by
    simp [published, publishEnvCredentials, setVar, envAdminPort, envNamespace, envMetricsPort]
  have adminSecret : published envAdminSecret = some evalAdminSecret := by
    simp [published, publishEnvCredentials, setVar, envAdminSecret, envAdminPort, envNamespace,
      envMetricsPort]
  have tenant : published envNamespace = some defaultNamespace := by
    simp [published, publishEnvCredentials, setVar, envNamespace, envMetricsPort, handleOf]
  have metricsPort : published envMetricsPort = some (toString opts.metricsPort.toNat) := by
    simp [published, publishEnvCredentials, setVar]
  have other (key : String) (member : key ∈ [brokerUrl, apiKey, serviceKey]) :
      published key = env key := by
    have apart : ∀ k ∈ [brokerUrl, apiKey, serviceKey],
        k ∉ [envAdminSecret, envAdminPort, envNamespace, envMetricsPort] := by decide
    have fresh := apart key member
    simp only [List.mem_cons, List.not_mem_nil, or_false, not_or] at fresh
    simp [published, publishEnvCredentials, setVar, fresh]
  refine ⟨?_, ?_, ?_⟩
  · simp [KeyMinter.fromExternalEnv, adminPort, adminSecret, tenant, parsePort_repr, keyMinter,
      handleOf, localhost]
  · simp [metricsAddrFromEnv, metricsPort, parsePort_repr, handleOf, localhost]
  · have broker : brokerConfigured published = brokerConfigured env := by
      rw [brokerConfigured, brokerConfigured, other brokerUrl (by simp)]
    have keys : ∀ keys ⊆ [apiKey, serviceKey], nonempty published keys = nonempty env keys :=
      fun keys inside => nonempty_congr fun key member => other key (.tail _ (inside member))
    rw [secretEnv, secretEnv, broker]
    exact keys _ (by split <;> simp)

end Credentials

end Server

end BrainEval
