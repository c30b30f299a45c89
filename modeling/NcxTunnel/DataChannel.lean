import NcxTunnel.Protocol

/-!
# The client's end of a data channel

`ncx_client/datachannel.cpp`.  Connects succeed, so the constructor leaves behind a
connection on which the greeting has been sent, and starting to forward connects
to the service at once.
-/

namespace NcxTunnel

/-- What `server_client_` calls when data has been read. -/
inductive DataHandle where
  | waitDataChannelStartCmd
  | forward
deriving Repr, DecidableEq

/-- `toServer` and `toService` is what has been passed to `Send`. -/
structure DataChannel where
  nonce : Bytes
  onMessage : DataHandle
  inputBuffer : Bytes
  serviceConnected : Bool
  toServer : Bytes
  toService : Bytes
deriving Repr, DecidableEq

namespace DataChannel

def dataHello (nonce : Bytes) : Hello := ⟨some .dataChannelHello, some nonce, none⟩

def doDataChannelHandshake (d : DataChannel) : DataChannel :=
  { d with
    toServer := d.toServer ++ headerInstaller (dataHello d.nonce).serializeAsString
    onMessage := .waitDataChannelStartCmd }

def new (nonce : Bytes) : DataChannel :=
  doDataChannelHandshake ⟨nonce, .waitDataChannelStartCmd, [], false, [], []⟩

/-- The lambda that forwards to the service. -/
def forward (d : DataChannel) : DataChannel :=
  if d.inputBuffer = [] then d
  else { d with toService := d.toService ++ d.inputBuffer, inputBuffer := [] }

def doDataChannelTransforward (d : DataChannel) : DataChannel :=
  let d := { d with onMessage := .forward, serviceConnected := true }
  -- bytes behind the command may have been read with it
  d.forward

def waitDataChannelStartCmd (pb : Protobuf) (d : DataChannel) : DataChannel :=
  match attemptBytes d.inputBuffer with
  | (none, buf) => { d with inputBuffer := buf }
  | (some recvCmd, buf) =>
      let d := { d with inputBuffer := buf }
      match (pb.parseDataChannelCmd recvCmd).2.dataChannelCmd with
      | .startForwardTcp => d.doDataChannelTransforward
      | .startForwardUdp => d
      | .unnamed _ => d

def handleMessage (pb : Protobuf) (d : DataChannel) : DataChannel :=
  match d.onMessage with
  | .waitDataChannelStartCmd => d.waitDataChannelStartCmd pb
  | .forward => d.forward

def handleDataIn (pb : Protobuf) (d : DataChannel) (chunk : Bytes) : DataChannel :=
  handleMessage pb { d with inputBuffer := d.inputBuffer ++ chunk }

/-- A read event on the connection to the service: everything goes to the server. -/
def handleServiceIn (d : DataChannel) (chunk : Bytes) : DataChannel :=
  { d with toServer := d.toServer ++ chunk }

variable {pb : Protobuf} {d : DataChannel} {chunk : Bytes}

theorem forward_eq (d : DataChannel) :
    d.forward = { d with toService := d.toService ++ d.inputBuffer, inputBuffer := [] } := by
  unfold forward
  split
  · rename_i h
    rw [h, List.append_nil, ← h]
  · rfl

theorem handleDataIn_forward (h : d.onMessage = .forward) : d.handleDataIn pb chunk =
    { d with toService := d.toService ++ (d.inputBuffer ++ chunk), inputBuffer := [] } := by
  simp only [handleDataIn, handleMessage, h, forward_eq]

theorem handleDataIn_incomplete (h : d.onMessage = .waitDataChannelStartCmd)
    (ha : attemptBytes (d.inputBuffer ++ chunk) = (none, d.inputBuffer ++ chunk)) :
    d.handleDataIn pb chunk = { d with inputBuffer := d.inputBuffer ++ chunk } := by
  simp only [handleDataIn, handleMessage, h, waitDataChannelStartCmd, ha]

/-- What was read behind the command goes to the service at once. -/
theorem handleDataIn_start (h : d.onMessage = .waitDataChannelStartCmd) {rest : Bytes}
    (ha : attemptBytes (d.inputBuffer ++ chunk) =
      (some (DataChannelCmd.serializeAsString ⟨some .startForwardTcp⟩), rest)) :
    d.handleDataIn pb chunk = { d with
      onMessage := .forward
      serviceConnected := true
      toService := d.toService ++ rest
      inputBuffer := [] } := by
  simp only [handleDataIn, handleMessage, h, waitDataChannelStartCmd, ha,
    pb.parseDataChannelCmd_serialize, DataChannelCmd.dataChannelCmd, Option.getD_some,
    doDataChannelTransforward, forward_eq]

end DataChannel

end NcxTunnel
