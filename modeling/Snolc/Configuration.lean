import Snolc.MuxSession
import Snolc.StackBridge
import Snolc.WireCodec

set_option autoImplicit false

/-!
# The configuration

`Config` and `Config::validate`: every check in the order of the source and with its
text. Sizes are 64-bit words, which a configuration carries as a fact. Roles and paths
that no check looks at are left out.
-/
namespace Snolc.Configuration
open CheckedSlice WireFormat

inductive ConfigError where
  | invalid (text : String)
  | size
  | overflow
  deriving DecidableEq, Repr

structure EngineConfig where
  workerThreads : ℕ := 1
  maxSessions : ℕ
  maxFlows : ℕ
  maxPendingSessions : ℕ
  maxPendingOpens : ℕ
  maxManagedBytes : ℕ
  maxCommands : ℕ
  maxEvents : ℕ
  maxIoChunk : ℕ
  maxIngressPacketsPerTick : ℕ
  connectTimeoutMs : ℕ
  handshakeTimeoutMs : ℕ
  shutdownTimeoutMs : ℕ

/-- The `[stack]` section: what the bridge reads of it, and what only its device does. -/
structure StackSection extends Stack.StackConfig where
  ipv4 : Bool
  ipv6 : Bool
  mtu : ℕ
  udpMetadataSlots : ℕ

inductive LogSource where
  | toml
  | env
  deriving DecidableEq, Repr

inductive LogLevel where
  | warning
  | error
  | debug
  deriving DecidableEq, Repr

inductive LoggingConfig where
  | off
  | file (source : LogSource) (levels : Option (List LogLevel)) (file limit : String) (logs : Option String)
      (queueBytes maxRecordBytes flushIntervalMs : ℕ)

inductive ControlConfig where
  | off
  | unix (maxRequestBytes maxConnections : ℕ)

def ControlConfig.isOff : ControlConfig → Bool
  | off => true
  | unix _ _ => false

structure TunnelConfig where
  name : String
  adapters : List String

def capacities (engine : EngineConfig) (stack : StackSection) (yamux : Mux.YamuxConfig) : List ℕ :=
  [engine.workerThreads, engine.maxSessions, engine.maxFlows, engine.maxPendingSessions, engine.maxPendingOpens,
    engine.maxManagedBytes, engine.maxCommands, engine.maxEvents, engine.maxIoChunk, engine.maxIngressPacketsPerTick,
    stack.tcpSocketRxBytes, stack.tcpSocketTxBytes, stack.udpSocketRxBytes, stack.udpSocketTxBytes,
    stack.udpMetadataSlots, stack.packetQueueBytes, stack.reassemblySlots, yamux.maxStreamsPerSession,
    yamux.receiveWindowBytes, yamux.splitSendSize]

structure Config where
  wireVersion : ℕ
  engine : EngineConfig
  stack : StackSection
  yamux : Mux.YamuxConfig
  logging : LoggingConfig
  control : ControlConfig
  tunnels : List TunnelConfig
  fits : ∀ n ∈ capacities engine stack yamux, n ≤ wordMax

/-! ## Sizes -/

def sizeUnit (unit : List Char) : Option ℕ :=
  if unit = ['b'] then some 1
  else if unit = ['k', 'b'] then some 1000
  else if unit = ['m', 'b'] then some 1000000
  else if unit = ['g', 'b'] then some 1000000000
  else if unit = ['k', 'i', 'b'] then some 1024
  else if unit = ['m', 'i', 'b'] then some 1048576
  else if unit = ['g', 'i', 'b'] then some 1073741824
  else none

def parseDigits (digits : List Char) : Except ConfigError ℕ :=
  let n := digits.foldl (fun n digit => 10 * n + (digit.toNat - '0'.toNat)) 0
  if digits = [] ∨ wordMax < n then .error .size else .ok n

def orOverflow {α : Type} : Option α → Except ConfigError α
  | some a => .ok a
  | none => .error .overflow

def parseFraction (whole multiplier : ℕ) : List (List Char) → Except ConfigError ℕ
  | [] => .ok whole
  | [fraction] => do
    if fraction = [] then throw .size
    if 2 ^ 32 ≤ fraction.length then throw .overflow
    let denominator ← orOverflow (if 10 ^ fraction.length ≤ wordMax then some (10 ^ fraction.length) else none)
    let numerator ← parseDigits fraction
    let product ← orOverflow (checkedMul numerator multiplier)
    orOverflow (checkedAdd whole (product / denominator))
  | _ :: _ :: _ => .error .size

/-- The part before the unit has only digits and dots, so its pieces are digits. -/
def parseSize (input : String) : Except ConfigError ℕ :=
  let number := input.toList.takeWhile fun character => character.isDigit || character == '.'
  let unit := input.toList.drop number.length
  if unit = [] then .error .size
  else
    match sizeUnit (unit.map Char.toLower) with
    | none => .error .size
    | some multiplier =>
      match number.splitOn '.' with
      | [] => .error .size
      | integer :: rest => do
        let digits ← parseDigits integer
        let whole ← orOverflow (checkedMul digits multiplier)
        parseFraction whole multiplier rest

/-! ## Validation -/

def validateLevels (levels : Option (List LogLevel)) : Except ConfigError Unit :=
  match levels with
  | none => .error (.invalid "TOML logging levels are required")
  | some levels =>
    if levels = [] then .error (.invalid "logging levels cannot be empty")
    else if ¬ levels.Nodup then .error (.invalid "logging levels must be unique")
    else .ok ()

def validateLogging : LoggingConfig → Except ConfigError Unit
  | .off => .ok ()
  | .file source levels file limit logs queueBytes maxRecordBytes flushIntervalMs => do
    if queueBytes = 0 ∨ maxRecordBytes = 0 ∨ queueBytes < maxRecordBytes ∨ flushIntervalMs = 0 then
      throw (.invalid "logging limits must be nonzero")
    match source with
    | .toml =>
      validateLevels levels
      let size ← parseSize limit
      if size < maxRecordBytes then throw (.invalid "log record exceeds log limit")
      if file = "" ∨ logs.isSome then throw (.invalid "TOML logging fields are inconsistent")
    | .env =>
      match logs with
      | none => throw (.invalid "environment LOGS name is required")
      | some logs =>
        if levels.isSome ∨ logs = "" ∨ file = "" ∨ limit = "" then
          throw (.invalid "environment logging fields are inconsistent")

def validateControl : ControlConfig → Except ConfigError Unit
  | .off => .ok ()
  | .unix maxRequestBytes maxConnections =>
    if maxRequestBytes = 0 ∨ 2 ^ 32 - 1 < maxRequestBytes ∨ maxConnections = 0 then
      .error (.invalid "control limits must be nonzero")
    else .ok ()

/-- The loop over the tunnels, with the names it has seen. -/
def validateTunnels : List String → List TunnelConfig → Except ConfigError Unit
  | _, [] => .ok ()
  | names, tunnel :: tunnels =>
    if tunnel.name = "" ∨ tunnel.name ∈ names then .error (.invalid "tunnel names must be nonempty and unique")
    else if tunnel.adapters = [] then .error (.invalid "a tunnel requires an adapter")
    else validateTunnels (tunnel.name :: names) tunnels

def validateStack (stack : StackSection) : Except ConfigError Unit := do
  if stack.ipv4 = false ∧ stack.ipv6 = false then throw (.invalid "at least one IP version must be enabled")
  if stack.mtu < 1280 then throw (.invalid "stack MTU must be at least 1280")
  if stack.maxUdpPayloadBytes ≠ maxUdpPayload then throw (.invalid "max UDP payload must be 65507")
  if stack.reassemblySlots ≠ 4 then throw (.invalid "reassembly slots must be 4")

def validateBuffers (engine : EngineConfig) (stack : StackSection) : Except ConfigError Unit := do
  if stack.tcpSocketRxBytes < engine.maxIoChunk ∨ stack.tcpSocketTxBytes < engine.maxIoChunk then
    throw (.invalid "max_io_chunk exceeds a TCP socket buffer")
  if stack.udpSocketRxBytes < stack.maxUdpPayloadBytes ∨ stack.udpSocketTxBytes < stack.maxUdpPayloadBytes then
    throw (.invalid "UDP socket cannot hold a maximum datagram")
  if stack.packetQueueBytes < Stack.maxIpv6PacketBytes then
    throw (.invalid "packet queue cannot hold a reassembled IPv6 packet")

def validateYamux (engine : EngineConfig) (yamux : Mux.YamuxConfig) : Except ConfigError Unit := do
  if yamux.maxStreamsPerSession < 2 then throw (.invalid "yamux needs one policy and one user stream")
  let requiredWindow ← orOverflow (checkedMul yamux.maxStreamsPerSession (256 * 1024))
  if yamux.receiveWindowBytes < requiredWindow then throw (.invalid "yamux receive window is too small")
  let allWindows ← orOverflow (checkedMul yamux.receiveWindowBytes engine.maxSessions)
  if engine.maxManagedBytes < allWindows then throw (.invalid "yamux windows exceed managed memory")
  let requiredFlows ← orOverflow (checkedMul engine.maxSessions (yamux.maxStreamsPerSession - 1))
  if engine.maxFlows < requiredFlows then throw (.invalid "flow limit cannot serve configured yamux streams")

def Config.validate (config : Config) : Except ConfigError Unit := do
  if config.wireVersion ≠ WireFormat.wireVersion then throw (.invalid "wire_version must be 1")
  validateStack config.stack
  if 0 ∈ capacities config.engine config.stack config.yamux then throw (.invalid "capacities must be nonzero")
  if 1 < config.engine.workerThreads ∧ config.control.isOff = false then
    throw (.invalid "multiple workers require control mode off")
  validateBuffers config.engine config.stack
  validateYamux config.engine config.yamux
  if 0 ∈ [config.engine.connectTimeoutMs, config.engine.handshakeTimeoutMs, config.engine.shutdownTimeoutMs,
      config.stack.reassemblyTimeoutMs] then
    throw (.invalid "timeouts must be nonzero")
  validateLogging config.logging
  validateControl config.control
  if config.tunnels = [] then throw (.invalid "at least one tunnel is required")
  validateTunnels [] config.tunnels

/-! ## What a validated configuration keeps to -/

theorem checkedMul_eq_some {a b n : ℕ} : checkedMul a b = some n ↔ a * b ≤ wordMax ∧ n = a * b := by
  unfold checkedMul
  split
  · rename_i h
    simp [h, eq_comm]
  · rename_i h
    simp [h]

theorem orOverflow_eq_ok {α : Type} {a : α} {x : Option α} : orOverflow x = .ok a ↔ x = some a := by
  cases x <;> simp [orOverflow]

theorem validateStack_ok {stack : StackSection} (h : validateStack stack = .ok ()) :
    1280 ≤ stack.mtu ∧ stack.maxUdpPayloadBytes = maxUdpPayload ∧ stack.reassemblySlots = 4 := by
  simp only [validateStack, throw_eq, error_bind, check_eq_ok, not_not, Nat.not_lt] at h
  obtain ⟨-, hmtu, hpayload, hslots, -⟩ := h
  exact ⟨hmtu, hpayload, hslots⟩

theorem validateBuffers_ok {engine : EngineConfig} {stack : StackSection} (h : validateBuffers engine stack = .ok ()) :
    Stack.maxIpv6PacketBytes ≤ stack.packetQueueBytes := by
  simp only [validateBuffers, throw_eq, error_bind, check_eq_ok, Nat.not_lt] at h
  obtain ⟨-, -, hqueue, -⟩ := h
  exact hqueue

structure YamuxFits (engine : EngineConfig) (yamux : Mux.YamuxConfig) : Prop where
  streams : 2 ≤ yamux.maxStreamsPerSession
  window : yamux.maxStreamsPerSession * (256 * 1024) ≤ yamux.receiveWindowBytes
  managed : yamux.receiveWindowBytes * engine.maxSessions ≤ engine.maxManagedBytes
  flows : engine.maxSessions * (yamux.maxStreamsPerSession - 1) ≤ engine.maxFlows

theorem validateYamux_ok {engine : EngineConfig} {yamux : Mux.YamuxConfig} (h : validateYamux engine yamux = .ok ()) :
    YamuxFits engine yamux := by
  simp only [validateYamux, throw_eq, error_bind, check_eq_ok, bind_eq_ok, orOverflow_eq_ok, checkedMul_eq_some,
    Nat.not_lt] at h
  obtain ⟨hstreams, window, ⟨-, rfl⟩, hwindow, managed, ⟨-, rfl⟩, hmanaged, flows, ⟨-, rfl⟩, hflows, -⟩ := h
  exact ⟨hstreams, hwindow, hmanaged, hflows⟩

/-- What the other modules use of a validated configuration. -/
structure Config.Accepted (config : Config) : Prop where
  slots : config.stack.reassemblySlots = 4
  queue : Stack.maxIpv6PacketBytes ≤ config.stack.packetQueueBytes
  nonzero : 0 ∉ capacities config.engine config.stack config.yamux
  yamux : YamuxFits config.engine config.yamux

theorem Config.validate_ok {config : Config} (h : config.validate = .ok ()) : config.Accepted := by
  simp only [Config.validate, throw_eq, error_bind, check_eq_ok, bind_eq_ok] at h
  obtain ⟨-, ⟨⟩, hstack, hnonzero, -, ⟨⟩, hbuffers, ⟨⟩, hyamux, -⟩ := h
  exact ⟨(validateStack_ok hstack).2.2, validateBuffers_ok hbuffers, hnonzero, validateYamux_ok hyamux⟩

theorem Config.managed_fits (config : Config) : config.engine.maxManagedBytes ≤ wordMax :=
  config.fits _ (by simp [capacities])

/-! ## A small configuration -/

def smallConfig (managed split : ℕ) (hmanaged : managed ≤ wordMax) (hsplit : split ≤ wordMax) : Config where
  wireVersion := 1
  engine := {
    maxSessions := 1, maxFlows := 1, maxPendingSessions := 1, maxPendingOpens := 1, maxManagedBytes := managed,
    maxCommands := 64, maxEvents := 256, maxIoChunk := 16384, maxIngressPacketsPerTick := 32,
    connectTimeoutMs := 15000, handshakeTimeoutMs := 15000, shutdownTimeoutMs := 5000 }
  stack := {
    ipv4 := true, ipv6 := true, mtu := 1280, tcpSocketRxBytes := 16384, tcpSocketTxBytes := 16384,
    udpSocketRxBytes := 131072, udpSocketTxBytes := 131072, udpMetadataSlots := 8, packetQueueBytes := 262144,
    maxUdpPayloadBytes := 65507, reassemblySlots := 4, reassemblyTimeoutMs := 15000 }
  yamux := ⟨2, 524288, split⟩
  logging := .off
  control := .off
  tunnels := [⟨"main", ["modules/socks5.toml"]⟩]
  fits := by
    have hword : wordMax = 18446744073709551615 := rfl
    simp only [capacities, List.forall_mem_cons, List.not_mem_nil, IsEmpty.forall_iff, implies_true, and_true]
    omega

theorem smallConfig_valid {managed split : ℕ} {hmanaged : managed ≤ wordMax} {hsplit : split ≤ wordMax}
    (hwindows : 524288 ≤ managed) (hpos : 0 < split) :
    (smallConfig managed split hmanaged hsplit).validate = .ok () := by
  have hrequired : checkedMul 2 (256 * 1024) = some 524288 := checkedMul_of_le (by decide)
  have hall : checkedMul 524288 1 = some 524288 := checkedMul_of_le (by decide)
  have hflows : checkedMul 1 (2 - 1) = some 1 := checkedMul_of_le (by decide)
  have hyamux : validateYamux (smallConfig managed split hmanaged hsplit).engine ⟨2, 524288, split⟩ = .ok () := by
    simp only [validateYamux, throw_eq, error_bind, check_eq_ok, bind_eq_ok, orOverflow_eq_ok]
    exact ⟨by decide, _, hrequired, by decide, _, hall, Nat.not_lt.mpr hwindows, _, hflows, Nat.lt_irrefl 1, rfl⟩
  simp only [Config.validate, throw_eq, error_bind, check_eq_ok, bind_eq_ok]
  refine ⟨not_not.mpr rfl, (), rfl, ?_, ?_, (), rfl, (), hyamux, ?_, (), rfl, (), rfl, List.cons_ne_nil _ _, rfl⟩
  · simp only [capacities, smallConfig, List.mem_cons, List.not_mem_nil, or_false]
    omega
  · exact fun h => absurd h.1 (Nat.lt_irrefl 1)
  · simp only [smallConfig, List.mem_cons, List.not_mem_nil, or_false]
    omega

end Snolc.Configuration
