import NcxTunnel.CControlChannel
import NcxTunnel.GatewayModel
import NcxTunnel.NServer

/-!
# Configuration of the client

`ClientConfig` of `util/config.h` with `network/InetAddress.cpp`: the services of
a client come from its own file or from the gateway that the file names.  A file
is a TOML table.  Integers are checked to be integers; the rest is casts.
-/

namespace NcxTunnel

def htons (port : UInt16) : UInt16 := port <<< 8 ||| port >>> 8

/-- It is its own inverse. -/
def ntohs (port : UInt16) : UInt16 := htons port

/-- A `sockaddr_in`, in network byte order. -/
structure InetAddress where
  sAddr : UInt32
  sinPort : UInt16
deriving Repr, DecidableEq

/-- What a function sees of a string it is given as `const char*`. -/
def cStr (s : Bytes) : Bytes := s.takeWhile (· ≠ 0)

namespace InetAddress

/-- With `inet_addr` as a parameter. -/
def new (inetAddr : Bytes → UInt32) (ip : Bytes) (port : UInt16) : InetAddress :=
  ⟨inetAddr (cStr ip), htons port⟩

def getPort (a : InetAddress) : UInt16 := ntohs a.sinPort

end InetAddress

theorem ntohs_htons (port : UInt16) : ntohs (htons port) = port := by
  apply UInt16.toBitVec_inj.mp
  ext i hi
  simp only [ntohs, htons, UInt16.toBitVec_or, UInt16.toBitVec_shiftLeft,
    UInt16.toBitVec_shiftRight, UInt16.toBitVec_ofNat]
  simp
  grind

/-- The port is an `int` before it is cast. -/
def portOf (n : Int32) : UInt16 := n.toUInt32.toUInt16

inductive Toml where
  | string (s : Bytes)
  | integer (n : Int64)
  /-- the bits of a `double` -/
  | floatingPoint (bits : UInt64)
  | boolean (b : Bool)
  | dateTime (text : Bytes)
  | array (xs : List Toml)
  /-- ordered by key -/
  | table (entries : List (Bytes × Toml))

namespace Toml

abbrev Table := List (Bytes × Toml)

def string? : Toml → Option Bytes
  | string s => some s
  | _ => none

def integer? : Toml → Option Int64
  | integer n => some n
  | _ => none

def table? : Toml → Option Table
  | table entries => some entries
  | _ => none

/-- `at_path` of a single key, if it has the kind asked for. -/
def Table.get? {α : Type} (t : Table) (key : String) (kind : Toml → Option α) : Option α :=
  (t.lookup (bytes key)).bind kind

end Toml

/-- `CControlChannelArgs` with the addresses. -/
structure ConfiguredArgs extends CControlChannelArgs where
  serverAddr : InetAddress
  serviceAddr : InetAddress
deriving Repr, DecidableEq

namespace ClientConfig
open Toml

/-! ## The functions

The text of the exception is printed, and the process exits. -/

def failure (text : Bytes) : Bytes := bytes "Failed To Parse Client Config File: " ++ text

def required {α : Type} (value : Option α) (text : Bytes) : Except Bytes α :=
  match value with
  | some a => .ok a
  | none => .error (failure text)

/-- `[client]`, which both ways need. -/
def clientTable (config : Table) : Except Bytes Table :=
  if config.isEmpty then .error (failure (bytes "Config is empty!"))
  else required (config.get? "client" table?) (bytes "[client] section is missing or invalid!")

def clientValue {α : Type} (client : Table) (key : String) (kind : Toml → Option α)
    (named : String) : Except Bytes α :=
  required (client.get? key kind) (bytes ("[client." ++ named ++ "] is missing or invalid!"))

section Local

variable (inetAddr : Bytes → UInt32)

def serviceValue {α : Type} (key : Bytes) (service : Table) (name : String)
    (kind : Toml → Option α) : Except Bytes α :=
  required (service.get? name kind)
    (bytes ("[" ++ name ++ "] is missing or invalid in service [") ++ key ++ bytes "]!")

/-- The body of the loop for a key other than `client`. -/
def serviceArgs (serverAddr : InetAddress) (key : Bytes) (val : Toml) :
    Except Bytes ConfiguredArgs := do
  let service ← required val.table?
    (bytes "Service [" ++ key ++ bytes "] is not a valid table!")
  let serviceIp ← serviceValue key service "service_ip" string?
  let servicePort ← serviceValue key service "service_port" integer?
  let proxyPort ← serviceValue key service "proxy_port" integer?
  return { serverAddr, serviceName := cStr key
           serviceAddr := .new inetAddr serviceIp (portOf servicePort.toInt32)
           proxyPort := portOf proxyPort.toInt32 }

/-- `for_each` over the table. -/
def allServiceArgs (serverAddr : InetAddress) : Table → Except Bytes (List ConfiguredArgs)
  | [] => .ok []
  | (key, val) :: entries =>
      if key = bytes "client" then allServiceArgs serverAddr entries
      else do
        let args ← serviceArgs inetAddr serverAddr key val
        let rest ← allServiceArgs serverAddr entries
        return args :: rest

def parseAsControlChannelArgsVecFromLocalConfig (config : Table) :
    Except Bytes (List ConfiguredArgs) := do
  let client ← clientTable config
  let serverIp ← clientValue client "server_ip" string? "server_ip"
  let serverPort ← clientValue client "server_port" integer? "server_port"
  allServiceArgs inetAddr (.new inetAddr serverIp (portOf serverPort.toInt32)) config

end Local

section Remote

variable (lib : Json.Library) (inetAddr : Bytes → UInt32)

/-- The body of the response for a host, a port and the body of the request; it is
empty where there was none. -/
abbrev Session := Bytes → Int32 → Bytes → Bytes

/-- What the gateway answers.  Its address and port are reported under other names. -/
def getService (session : Session) (config : Table) : Except Bytes Bytes := do
  let client ← clientTable config
  let gatewayIp ← clientValue client "gateway_ip" string? "server_ip"
  let gatewayPort ← clientValue client "gateway_port" integer? "server_port"
  let token ← clientValue client "token" string? "token"
  let req ← (GetServiceReq.toJson lib ⟨token⟩).mapError ModelError.what
  return session (cStr gatewayIp) gatewayPort.toInt32 req

def respArgs (resp : GetServiceResp) (info : ServiceInfo) : ConfiguredArgs where
  serverAddr := .new inetAddr resp.serverAddr (portOf resp.serverPort)
  serviceName := info.serviceName
  serviceAddr := .new inetAddr info.serviceAddr (portOf info.servicePort)
  proxyPort := portOf info.proxyPort

def parseAsControlChannelArgsVecFromRemoteConfig (session : Session) (config : Table) :
    Except Bytes (List ConfiguredArgs) := do
  let body ← getService lib session config
  let resp ← (GetServiceResp.parse lib body).mapError ModelError.what
  return resp.services.map (respArgs inetAddr resp)

end Remote

end ClientConfig

def IsPort (n : ℤ) : Prop := 0 ≤ n ∧ n ≤ 65535

instance (n : ℤ) : Decidable (IsPort n) := inferInstanceAs (Decidable (_ ∧ _))

/-- An `int` has the last 16 bits of what it was cast from. -/
theorem bmod_emod (n : ℤ) : n.bmod (2 ^ 32) % 65536 = n % 65536 := by
  rw [Int.bmod_def]
  push_cast
  split
  · omega
  · omega

theorem toNat_portOf (n : Int32) : ((portOf n).toNat : ℤ) = n.toInt % 65536 := by
  have hn : n.toInt = (n.toUInt32.toNat : ℤ).bmod (2 ^ 32) := by
    rw [← Int32.toNat_toBitVec]
    exact BitVec.toInt_eq_toNat_bmod n.toBitVec
  rw [portOf, UInt32.toNat_toUInt16, hn, bmod_emod]
  exact Int.natCast_mod _ _

theorem toNat_portOf_toInt32 (n : Int64) : ((portOf n.toInt32).toNat : ℤ) = n.toInt % 65536 := by
  rw [toNat_portOf, Int64.toInt_toInt32]
  exact bmod_emod n.toInt

theorem toNat_portOf_ofInt (n : ℤ) : ((portOf (.ofInt n)).toNat : ℤ) = n % 65536 := by
  rw [toNat_portOf, Int32.toInt_ofInt]
  exact bmod_emod n

/-- A cast keeps exactly the ports. -/
theorem toNat_eq_iff {port : UInt16} {n : ℤ} (h : (port.toNat : ℤ) = n % 65536) :
    (port.toNat : ℤ) = n ↔ IsPort n := by
  rw [h, IsPort]
  omega

theorem getPort_new (inetAddr : Bytes → UInt32) (ip : Bytes) (port : UInt16) :
    (InetAddress.new inetAddr ip port).getPort = port :=
  ntohs_htons port

/-- The server has handled a greeting and listens on one more port. -/
structure Listener (pb : Protobuf) (hello : Hello) where
  before : NServer
  after : NServer
  answers : Answers
  frame : Frame
  origin : Obj
  payload : Bytes
  rest : Bytes
  port : UInt16
  arrived : attemptBytes (before.conns origin).inputBuffer = (some payload, rest)
  parsed : (pb.parseHello payload).2 = hello
  handled : before.handleNewConnection pb answers frame origin = .ok after
  bound : after.boundPorts = port :: before.boundPorts
  ephemeral : answers.ephemeralPort ≠ 0

namespace Listener

variable {pb : Protobuf} {hello : Hello}

theorem port_eq (l : Listener pb hello) :
    l.port = if portOf hello.controlChannelHelloContent.proxyPort = 0 then l.answers.ephemeralPort
      else portOf hello.controlChannelHelloContent.proxyPort := by
  have hhandled := l.handled
  have hbound := l.bound
  unfold NServer.handleNewConnection at hhandled
  simp only [l.arrived, l.parsed] at hhandled
  cases ht : hello.helloType with
  | controlChannelHello =>
    rw [ht] at hhandled
    exact NServer.handleControlChannelHello_boundPorts hhandled hbound
  | dataChannelHello =>
    rw [ht] at hhandled
    rw [NServer.handleDataChannelHello_boundPorts hhandled] at hbound
    exact absurd (congrArg List.length hbound) (by simp [NServer.modifyConn])
  | unnamed v =>
    rw [ht, Except.ok.injEq] at hhandled
    rw [← hhandled] at hbound
    exact absurd (congrArg List.length hbound) (by simp [NServer.modifyConn])

/-- Port 0 of a greeting is not the port of its listener. -/
theorem toNat_port_eq_iff (l : Listener pb hello) {n : ℤ}
    (hn : ((portOf hello.controlChannelHelloContent.proxyPort).toNat : ℤ) = n % 65536) :
    (l.port.toNat : ℤ) = n ↔ IsPort n ∧ n ≠ 0 := by
  have hport := l.port_eq
  split at hport
  · case isTrue hzero =>
    rw [hzero] at hn
    have hlt := l.port.toNat_lt
    have hne : l.port.toNat ≠ 0 := by
      intro h
      exact l.ephemeral (hport.symm.trans (UInt16.toNat_inj.mp h))
    simp only [UInt16.toNat_zero] at hn
    rw [IsPort]
    omega
  · case isFalse hzero =>
    have hne : (portOf hello.controlChannelHelloContent.proxyPort).toNat ≠ 0 := by
      intro h
      exact hzero (UInt16.toNat_inj.mp h)
    rw [hport, hn, IsPort]
    omega

end Listener

/-! ## From the configuration to the listener -/

/-- The integers that a configuration has for one service. -/
structure Ports where
  server : ℤ
  service : ℤ
  proxy : ℤ
deriving Repr, DecidableEq

/-- The ports of both addresses and of a listener for the service are the configured
integers exactly if these are ports, and the one to listen on is not 0. -/
structure Ports.Kept (p : Ports) (args : ConfiguredArgs) : Prop where
  server : (args.serverAddr.getPort.toNat : ℤ) = p.server ↔ IsPort p.server
  service : (args.serviceAddr.getPort.toNat : ℤ) = p.service ↔ IsPort p.service
  proxy : ∀ (pb : Protobuf)
    (l : Listener pb (CControlChannel.controlHello args.toCControlChannelArgs)),
    (l.port.toNat : ℤ) = p.proxy ↔ IsPort p.proxy ∧ p.proxy ≠ 0

theorem Ports.kept_of_casts {p : Ports} {args : ConfiguredArgs}
    (hserver : (args.serverAddr.getPort.toNat : ℤ) = p.server % 65536)
    (hservice : (args.serviceAddr.getPort.toNat : ℤ) = p.service % 65536)
    (hproxy : (args.proxyPort.toNat : ℤ) = p.proxy % 65536) : p.Kept args := by
  refine ⟨toNat_eq_iff hserver, toNat_eq_iff hservice, fun pb l => l.toNat_port_eq_iff ?_⟩
  -- the port is an `int32` of the greeting on its way
  have hwire : portOf args.proxyPort.toUInt32.toInt32 = args.proxyPort := by simp [portOf]
  exact (congrArg (fun port : UInt16 => (port.toNat : ℤ)) hwire).trans hproxy

namespace ClientConfig
open Toml

theorem exists_of_bind_ok {ε α β : Type} {x : Except ε α} {f : α → Except ε β} {b : β}
    (h : (x >>= f) = .ok b) : ∃ a, x = .ok a ∧ f a = .ok b := by
  cases x with
  | error e => cases h
  | ok a => exact ⟨a, rfl, h⟩

theorem required_eq_ok {α : Type} {value : Option α} {text : Bytes} {a : α}
    (h : required value text = .ok a) : value = some a := by
  cases value with
  | none => cases h
  | some b => exact congrArg some (Except.ok.inj h)

theorem clientTable_eq_ok {config client : Table} (h : clientTable config = .ok client) :
    config.get? "client" table? = some client := by
  unfold clientTable at h
  split at h
  · cases h
  · exact required_eq_ok h

def servicePorts (server : ℤ) (val : Toml) : Option Ports := do
  let service ← val.table?
  let servicePort ← service.get? "service_port" integer?
  let proxyPort ← service.get? "proxy_port" integer?
  return ⟨server, servicePort.toInt, proxyPort.toInt⟩

/-- Every entry but `client` is a service. -/
def localPorts (config : Table) : Option (List Ports) := do
  let client ← config.get? "client" table?
  let server ← client.get? "server_port" integer?
  (config.filter fun entry => entry.1 ≠ bytes "client").mapM fun entry =>
    servicePorts server.toInt entry.2

section Local

variable {inetAddr : Bytes → UInt32} {serverAddr : InetAddress} {server : ℤ}
  (hserver : (serverAddr.getPort.toNat : ℤ) = server % 65536)

include hserver in
theorem serviceArgs_kept {key : Bytes} {val : Toml} {args : ConfiguredArgs}
    (h : serviceArgs inetAddr serverAddr key val = .ok args) :
    ∃ p, servicePorts server val = some p ∧ p.Kept args := by
  obtain ⟨service, htable, h⟩ := exists_of_bind_ok h
  obtain ⟨serviceIp, -, h⟩ := exists_of_bind_ok h
  obtain ⟨servicePort, hservice, h⟩ := exists_of_bind_ok h
  obtain ⟨proxyPort, hproxy, h⟩ := exists_of_bind_ok h
  cases h
  refine ⟨⟨server, servicePort.toInt, proxyPort.toInt⟩, ?_, Ports.kept_of_casts hserver ?_ ?_⟩
  · simp only [servicePorts, required_eq_ok htable, required_eq_ok hservice,
      required_eq_ok hproxy, bind, Option.bind]
    rfl
  · rw [getPort_new]
    exact toNat_portOf_toInt32 servicePort
  · exact toNat_portOf_toInt32 proxyPort

include hserver in
theorem allServiceArgs_kept {entries : Table} {args : List ConfiguredArgs}
    (h : allServiceArgs inetAddr serverAddr entries = .ok args) :
    ∃ ports, ((entries.filter fun entry => entry.1 ≠ bytes "client").mapM fun entry =>
      servicePorts server entry.2) = some ports ∧
      List.Forall₂ (fun args p => p.Kept args) args ports := by
  induction entries generalizing args with
  | nil =>
    cases h
    exact ⟨[], rfl, .nil⟩
  | cons entry entries ih =>
    obtain ⟨key, val⟩ := entry
    unfold allServiceArgs at h
    split at h
    · case isTrue hclient =>
      obtain ⟨ports, hports, hkept⟩ := ih h
      refine ⟨ports, ?_, hkept⟩
      rw [List.filter_cons_of_neg (by simp [hclient])]
      exact hports
    · case isFalse hclient =>
      obtain ⟨first, hfirst, h⟩ := exists_of_bind_ok h
      obtain ⟨rest, hrest, h⟩ := exists_of_bind_ok h
      cases h
      obtain ⟨p, hp, hkept⟩ := serviceArgs_kept hserver hfirst
      obtain ⟨ports, hports, hall⟩ := ih hrest
      refine ⟨p :: ports, ?_, .cons hkept hall⟩
      rw [List.filter_cons_of_pos (by simp [hclient]), List.mapM_cons, hp, hports]
      rfl

end Local

theorem local_kept {inetAddr : Bytes → UInt32} {config : Table} {args : List ConfiguredArgs}
    (h : parseAsControlChannelArgsVecFromLocalConfig inetAddr config = .ok args) :
    ∃ ports, localPorts config = some ports ∧
      List.Forall₂ (fun args p => p.Kept args) args ports := by
  obtain ⟨client, hclient, h⟩ := exists_of_bind_ok h
  obtain ⟨serverIp, -, h⟩ := exists_of_bind_ok h
  obtain ⟨serverPort, hport, h⟩ := exists_of_bind_ok h
  have hserver : ((InetAddress.new inetAddr serverIp (portOf serverPort.toInt32)).getPort.toNat : ℤ) =
      serverPort.toInt % 65536 := by
    rw [getPort_new]
    exact toNat_portOf_toInt32 serverPort
  obtain ⟨ports, hports, hkept⟩ := allServiceArgs_kept hserver h
  refine ⟨ports, ?_, hkept⟩
  simp only [localPorts, clientTable_eq_ok hclient, required_eq_ok hport, bind, Option.bind]
  exact hports

def answerServicePorts (server : ℤ) (j : Json) : Option Ports := do
  let servicePort ← (j.find? (bytes "service_port")).bind Json.integer?
  let proxyPort ← (j.find? (bytes "proxy_port")).bind Json.integer?
  return ⟨server, servicePort, proxyPort⟩

/-- An answer without a port of the server means port 0. -/
def answerPorts (j : Json) : Option (List Ports) := do
  let server ← GetServiceResp.optionalOf j "server_port" Json.integer? 0
  (GetServiceResp.elements j "services").mapM (answerServicePorts server)

def remotePorts (lib : Json.Library) (session : Session) (config : Table) :
    Option (List Ports) := do
  let body ← (getService lib session config).toOption
  let j ← (lib.parse body).toOption
  answerPorts j

section Remote

variable {inetAddr : Bytes → UInt32} {resp : GetServiceResp} {server : ℤ}
  (hserver : ((portOf resp.serverPort).toNat : ℤ) = server % 65536)

include hserver in
theorem respArgs_kept {j : Json} {info : ServiceInfo} (h : ServiceInfo.read? j = some info) :
    ∃ p, answerServicePorts server j = some p ∧ p.Kept (respArgs inetAddr resp info) := by
  obtain ⟨-, -, ⟨servicePort, hservice, hs⟩, proxyPort, hproxy, hp⟩ :=
    ServiceInfo.read?_eq_some_iff.mp h
  refine ⟨⟨server, servicePort, proxyPort⟩, ?_, Ports.kept_of_casts ?_ ?_ ?_⟩
  · rw [answerServicePorts, hservice, hproxy]
    rfl
  · rw [respArgs, getPort_new]
    exact hserver
  · rw [respArgs, getPort_new, ← hs]
    exact toNat_portOf_ofInt servicePort
  · rw [respArgs, ← hp]
    exact toNat_portOf_ofInt proxyPort

include hserver in
theorem readAll_kept {js : List Json} (h : (GetServiceResp.readAll js).2 = true) :
    ∃ ports, js.mapM (answerServicePorts server) = some ports ∧
      List.Forall₂ (fun args p => p.Kept args)
        ((GetServiceResp.readAll js).1.map (respArgs inetAddr resp)) ports := by
  induction js with
  | nil => exact ⟨[], rfl, .nil⟩
  | cons j js ih =>
    unfold GetServiceResp.readAll at h ⊢
    cases hread : ServiceInfo.read? j with
    | none =>
      rw [hread] at h
      cases h
    | some info =>
      rw [hread] at h
      obtain ⟨p, hp, hkept⟩ := respArgs_kept hserver hread
      obtain ⟨ports, hports, hall⟩ := ih h
      refine ⟨p :: ports, ?_, .cons hkept hall⟩
      rw [List.mapM_cons, hp, hports]
      rfl

end Remote

theorem mapError_eq_ok {ε ε' α : Type} {x : Except ε α} {f : ε → ε'} {a : α}
    (h : x.mapError f = .ok a) : x = .ok a := by
  cases x with
  | error e => cases h
  | ok b => exact congrArg Except.ok (Except.ok.inj h)

theorem remote_kept {lib : Json.Library} {inetAddr : Bytes → UInt32} {session : Session}
    {config : Table} {args : List ConfiguredArgs}
    (h : parseAsControlChannelArgsVecFromRemoteConfig lib inetAddr session config = .ok args) :
    ∃ ports, remotePorts lib session config = some ports ∧
      List.Forall₂ (fun args p => p.Kept args) args ports := by
  obtain ⟨body, hbody, h⟩ := exists_of_bind_ok h
  obtain ⟨resp, hresp, h⟩ := exists_of_bind_ok h
  obtain ⟨j, hparse, haccepted, hr⟩ := GetServiceResp.accepted_of_parse (mapError_eq_ok hresp)
  obtain ⟨n, hn, hport⟩ := GetServiceResp.serverPort_of_accepted haccepted {}
  obtain ⟨hall, hservices⟩ := GetServiceResp.services_of_accepted haccepted {}
  have hserver : ((portOf resp.serverPort).toNat : ℤ) = n % 65536 := by
    rw [hr, hport]
    exact toNat_portOf_ofInt n
  obtain ⟨ports, hports, hkept⟩ := readAll_kept hserver hall
  refine ⟨ports, ?_, ?_⟩
  · simp only [remotePorts, hbody, hparse, answerPorts, hn, Except.toOption, bind, Option.bind]
    exact hports
  · rw [← hservices, ← hr] at hkept
    cases h
    exact hkept

/-- A configured integer arrives at the addresses of the client and at the listener
of the server as it is exactly if it is a port, and for the listener not 0;
so does the port of a greeting. -/
theorem ports_kept_iff (lib : Json.Library) (inetAddr : Bytes → UInt32) (session : Session)
    (config : Table) :
    (∀ args, parseAsControlChannelArgsVecFromLocalConfig inetAddr config = .ok args →
      ∃ ports, localPorts config = some ports ∧
        List.Forall₂ (fun args p => p.Kept args) args ports) ∧
    (∀ args, parseAsControlChannelArgsVecFromRemoteConfig lib inetAddr session config = .ok args →
      ∃ ports, remotePorts lib session config = some ports ∧
        List.Forall₂ (fun args p => p.Kept args) args ports) ∧
    ∀ (pb : Protobuf) (hello : Hello) (l : Listener pb hello),
      (l.port.toNat : ℤ) = hello.controlChannelHelloContent.proxyPort.toInt ↔
        IsPort hello.controlChannelHelloContent.proxyPort.toInt ∧
          hello.controlChannelHelloContent.proxyPort.toInt ≠ 0 := by
  refine ⟨fun args => local_kept, fun args => remote_kept, fun pb hello l => ?_⟩
  exact l.toNat_port_eq_iff (toNat_portOf _)

/-- A server that listens on port 8080 makes a listener for any other port. -/
theorem nonempty_listener {args : CControlChannelArgs}
    (hvalid : (CControlChannel.controlHello args).Valid) (hport : args.proxyPort ≠ 8080) :
    Nonempty (Listener .wire (CControlChannel.controlHello args)) := by
  have hframe := (hvalid.frameable rfl).attemptBytes_frame []
  rw [List.append_nil] at hframe
  have hparse := Protobuf.wire.parseHello_serialize _ hvalid
  have hwire : args.proxyPort.toUInt32.toInt32.toUInt32.toUInt16 = args.proxyPort := by simp
  let s := NServer.firstClient (headerInstaller (CControlChannel.controlHello args).serializeAsString)
  let a : Answers := ⟨exampleNonce, fun _ => false, fun _ => false, false, 40000⟩
  have hfree : ¬(s.modifyConn 0 fun c => { c with inputBuffer := [] }).bindFails a args.proxyPort := by
    rintro (⟨-, hmem⟩ | hrefused)
    · exact hport (List.mem_singleton.mp hmem)
    · cases hrefused
  obtain ⟨after, hafter, hbound⟩ : ∃ after,
      (s.modifyConn 0 fun c => { c with inputBuffer := [] }).handleControlChannelHello a ⟨[0], []⟩ 0
        args.serviceName args.proxyPort = .ok after ∧ after.boundPorts = _ :=
    NServer.handleControlChannelHello_listens (fun _ => rfl) rfl hfree
  have hhandled : s.handleNewConnection .wire a ⟨[0], []⟩ 0 = .ok after := by
    have hinput : (s.conns 0).inputBuffer =
        headerInstaller (CControlChannel.controlHello args).serializeAsString := rfl
    unfold NServer.handleNewConnection
    simp only [hinput, hframe, hparse]
    change NServer.handleControlChannelHello a _ _ _ _
      args.proxyPort.toUInt32.toInt32.toUInt32.toUInt16 = _
    rw [hwire]
    exact hafter
  exact ⟨{
    before := s
    after := after
    answers := a
    frame := ⟨[0], []⟩
    origin := 0
    payload := _
    rest := []
    port := _
    arrived := hframe
    parsed := by rw [hparse]
    handled := hhandled
    bound := hbound
    ephemeral := by decide }⟩

/-- The service `ssh` of a client. -/
def exampleConfig (serverPort servicePort proxyPort : Int64) : Table :=
  [(bytes "client", .table [(bytes "server_ip", .string (bytes "127.0.0.1")),
      (bytes "server_port", .integer serverPort)]),
    (bytes "ssh", .table [(bytes "proxy_port", .integer proxyPort),
      (bytes "service_ip", .string (bytes "127.0.0.1")),
      (bytes "service_port", .integer servicePort)])]

/-- A client that asks its gateway. -/
def exampleRemote : Table :=
  [(bytes "client", .table [(bytes "gateway_ip", .string (bytes "127.0.0.1")),
    (bytes "gateway_port", .integer 8888), (bytes "token", .string (bytes "t"))])]

def exampleAnswer : Json :=
  .object [(bytes "server_port", .numberUnsigned 6666),
    (bytes "services", .array [.object [(bytes "proxy_port", .numberUnsigned 6667),
      (bytes "service_addr", .string (bytes "127.0.0.1")),
      (bytes "service_name", .string (bytes "ssh")), (bytes "service_port", .numberUnsigned 22)]])]

theorem getService_exampleRemote (lib : Json.Library) (body : Bytes) :
    getService lib (fun _ _ _ => body) exampleRemote = .ok body := by
  obtain ⟨req, hdump, -⟩ := lib.parse_dump (.ofAssignments [(bytes "token", .string (bytes "t"))])
    (by decide +kernel) (by decide +kernel)
  have hreq : GetServiceReq.toJson lib ⟨bytes "t"⟩ = .ok req := by
    rw [GetServiceReq.toJson, hdump]
    rfl
  change (GetServiceReq.toJson lib ⟨bytes "t"⟩).mapError ModelError.what >>= _ = _
  rw [hreq]
  rfl

/-- The same ports in a file, in an answer of the gateway and in a greeting. -/
theorem ports_kept_iff_ssh :
    let inetAddr : Bytes → UInt32 := fun _ => 0
    (∃ args, parseAsControlChannelArgsVecFromLocalConfig inetAddr (exampleConfig 6666 22 6667) =
        .ok [args] ∧ Ports.Kept ⟨6666, 22, 6667⟩ args ∧
        Nonempty (Listener .wire (CControlChannel.controlHello args.toCControlChannelArgs))) ∧
    (∃ args, parseAsControlChannelArgsVecFromRemoteConfig JsonText.library inetAddr
        (fun _ _ _ => JsonText.print exampleAnswer) exampleRemote = .ok [args] ∧
        Ports.Kept ⟨6666, 22, 6667⟩ args) ∧
    ∃ l : Listener .wire (CControlChannel.controlHello ⟨bytes "ssh", 6667⟩),
      (l.port.toNat : ℤ) = 6667 := by
  intro inetAddr
  have hvalid : (CControlChannel.controlHello ⟨bytes "ssh", 6667⟩).Valid := by decide +kernel
  obtain ⟨l⟩ := nonempty_listener hvalid (by decide)
  refine ⟨?_, ?_, l, ?_⟩
  · have hargs : parseAsControlChannelArgsVecFromLocalConfig inetAddr (exampleConfig 6666 22 6667) =
        .ok [⟨⟨bytes "ssh", 6667⟩, .new inetAddr (bytes "127.0.0.1") 6666,
          .new inetAddr (bytes "127.0.0.1") 22⟩] := rfl
    obtain ⟨ports, hports, hkept⟩ := (ports_kept_iff JsonText.library inetAddr (fun _ _ _ => [])
      (exampleConfig 6666 22 6667)).1 _ hargs
    have hlocal : localPorts (exampleConfig 6666 22 6667) = some [⟨6666, 22, 6667⟩] := by
      decide +kernel
    rw [hlocal, Option.some.injEq] at hports
    subst hports
    exact ⟨_, hargs, (List.forall₂_cons.mp hkept).1, ⟨l⟩⟩
  · have hbody := getService_exampleRemote JsonText.library (JsonText.print exampleAnswer)
    have hparse : JsonText.library.parse (JsonText.print exampleAnswer) =
        .ok exampleAnswer.normalize :=
      JsonText.library_parse_print (by decide +kernel) (by decide +kernel)
    have hresp := GetServiceResp.parse_of_accepted hparse (by decide +kernel)
    have hargs : parseAsControlChannelArgsVecFromRemoteConfig JsonText.library inetAddr
        (fun _ _ _ => JsonText.print exampleAnswer) exampleRemote =
        .ok [⟨⟨bytes "ssh", 6667⟩, .new inetAddr [] 6666, .new inetAddr (bytes "127.0.0.1") 22⟩] := by
      rw [parseAsControlChannelArgsVecFromRemoteConfig, hbody]
      simp only [bind, Except.bind, hresp, Except.mapError]
      rfl
    obtain ⟨ports, hports, hkept⟩ := (ports_kept_iff JsonText.library inetAddr
      (fun _ _ _ => JsonText.print exampleAnswer) exampleRemote).2.1 _ hargs
    have hremote : remotePorts JsonText.library (fun _ _ _ => JsonText.print exampleAnswer)
        exampleRemote = some [⟨6666, 22, 6667⟩] := by
      simp only [remotePorts, hbody, hparse, Except.toOption, bind, Option.bind]
      decide +kernel
    rw [hremote, Option.some.injEq] at hports
    subst hports
    exact ⟨_, hargs, (List.forall₂_cons.mp hkept).1⟩
  · exact ((ports_kept_iff JsonText.library inetAddr (fun _ _ _ => []) []).2.2 .wire _ l).mpr
      (by decide +kernel)

/-- Neither 65558 nor 72203 is refused: the client connects to port 22, and the
server listens on port 6667. -/
theorem ports_truncated :
    localPorts (exampleConfig 6666 65558 72203) = some [⟨6666, 65558, 72203⟩] ∧
    ∃ args, parseAsControlChannelArgsVecFromLocalConfig (fun _ => 0)
        (exampleConfig 6666 65558 72203) = .ok [args] ∧ args.serviceAddr.getPort = 22 ∧
      ∃ l : Listener .wire (CControlChannel.controlHello args.toCControlChannelArgs),
        l.port = 6667 := by
  have hvalid : (CControlChannel.controlHello ⟨bytes "ssh", 6667⟩).Valid := by decide +kernel
  obtain ⟨l⟩ := nonempty_listener hvalid (by decide)
  exact ⟨by decide +kernel, ⟨⟨bytes "ssh", 6667⟩, .new (fun _ => 0) (bytes "127.0.0.1") 6666,
    .new (fun _ => 0) (bytes "127.0.0.1") 22⟩, rfl, getPort_new _ _ _, l, l.port_eq⟩

end ClientConfig

end NcxTunnel
