import SdvZone.MpuServiceDiscovery
import SdvZone.DictUpdate

/-! The server and the client of service discovery (`SdServer` and `SdClient` in
`mpu/someip/sd.py`). Sockets are their datagrams: a server hands out the packets it sends, a client
is given the datagrams that arrive before its deadline. -/

namespace SdvZone.Mpu

open Wire

/-! ### The server -/

structure SdServer where
  serviceId : Nat
  instanceId : Nat
  ip : DottedQuad
  port : Nat
  multicast : DottedQuad
  sdPort : Nat
  session : Nat
  first : Bool
  deriving DecidableEq, Repr

/-- What `sendto` is given. -/
structure SentTo where
  packet : Bytes
  address : DottedQuad
  port : Nat
  deriving DecidableEq, Repr

namespace SdServer

def init (serviceId instanceId : Nat) (ip : DottedQuad) (port : Nat)
    (multicast : DottedQuad := sdMulticast) (sdPort : Nat := Mpu.sdPort) : SdServer :=
  { serviceId := serviceId
    instanceId := instanceId
    ip := ip
    port := port
    multicast := multicast
    sdPort := sdPort
    session := 1
    first := true }

def offerOnce (server : SdServer) : Except PyError (SentTo × SdServer) := do
  let flags := if server.first then flagReboot ||| flagUnicast else flagUnicast
  let packet ← buildOfferService server.serviceId server.instanceId server.ip server.port
    server.session ttlDefault 0 flags
  let session := server.session + 1
  return (⟨packet, server.multicast, server.sdPort⟩,
    { server with first := false, session := if 0xFFFF < session then 1 else session })

/-- What the next call sends after some earlier ones. -/
def offerAfter (server : SdServer) : Nat → Except PyError SentTo
  | 0 => do
      let (sent, _) ← server.offerOnce
      return sent
  | earlier + 1 => do
      let (_, next) ← server.offerOnce
      next.offerAfter earlier

end SdServer

/-! ### The client -/

structure ServiceRecord where
  serviceId : Nat
  instanceId : Nat
  ip : DottedQuad
  port : Nat
  deriving DecidableEq, Repr

/-- `results`, by service and instance id. -/
abbrev Results := OrderedDict (Nat × Nat) ServiceRecord

namespace SdClient

/-- `sock.recvfrom(4096)` discards what does not fit. -/
def recvfrom (datagram : Bytes) : Bytes := datagram.take 4096

/-- The endpoint of an option the client looks for. -/
def ip4Endpoint (option : ParsedOption) : Option ParsedEndpoint :=
  if option.optionType = optIp4Endpoint then option.endpoint else none

/-- The body of the loop over the entries: what it assigns to `results`, if anything. The loop over
the options breaks at the first endpoint. -/
def entryUpdate (findServiceId findInstanceId : Nat) (options : List ParsedOption)
    (entry : ParsedEntry) : Option ((Nat × Nat) × ServiceRecord) :=
  if entry.entryType ≠ entryOfferService then none
  else if findServiceId ≠ 0xFFFF ∧ entry.serviceId ≠ findServiceId then none
  else if findInstanceId ≠ 0xFFFF ∧ entry.instanceId ≠ findInstanceId then none
  else
    match options.findSome? ip4Endpoint with
    | none => none
    | some endpoint =>
        some ((entry.serviceId, entry.instanceId),
          { serviceId := entry.serviceId
            instanceId := entry.instanceId
            ip := endpoint.address
            port := endpoint.port })

def collect (findServiceId findInstanceId : Nat) (results : Results) (parsed : SdInfo) : Results :=
  parsed.entries.foldl (fun results entry =>
    match entryUpdate findServiceId findInstanceId parsed.options entry with
    | none => results
    | some (key, record) => results.set key record) results

/-- One pass of the receive loop: a `ValueError` is skipped, any other exception ends the call. -/
def receive (findServiceId findInstanceId : Nat) (results : Results) (data : Bytes) :
    Except PyError Results :=
  match parseSd data with
  | .error (.valueError _) => .ok results
  | .error error => .error error
  | .ok parsed => .ok (collect findServiceId findInstanceId results parsed)

def discover (serviceId instanceId : Option Nat) (datagrams : List Bytes) :
    Except PyError (List ServiceRecord) := do
  let findServiceId := serviceId.getD 0xFFFF
  let findInstanceId := instanceId.getD 0xFFFF
  let _packet ← buildFindService findServiceId findInstanceId
  let results ← (datagrams.map recvfrom).foldlM (receive findServiceId findInstanceId) .empty
  return results.values

end SdClient

end SdvZone.Mpu
