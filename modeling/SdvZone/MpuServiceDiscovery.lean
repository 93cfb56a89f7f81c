import SdvZone.MpuProtocol

/-! The wire format of service discovery (`mpu/someip/sd.py`): the builders and `parse_sd`. An IPv4
address is its canonical dotted quad, kept as four octets: `inet_aton` and `inet_ntoa` are the two
directions between it and four bytes. A key that a dictionary of the parser may lack is an option. -/

namespace SdvZone.Mpu

open Wire

def sdServiceId : Nat := 0xFFFF
def sdMethodId : Nat := 0x8100
def sdClientId : Nat := 0x0000
def sdPort : Nat := 30490
def sdProtocolVersion : Nat := 0x01
def sdInterfaceVersion : Nat := 0x01
def sdMessageType : Nat := 0x02
def sdReturnCode : Nat := 0x00
def flagUnicast : Nat := 0x40
def flagReboot : Nat := 0x80
def ttlDefault : Nat := 0xFFFFFF
def ttlStop : Nat := 0x000000
def l4Udp : Nat := 0x11

def entryFindService : Nat := 0x00
def entryOfferService : Nat := 0x01
def entrySubscribeEventgroup : Nat := 0x06

def optIp4Endpoint : Nat := 0x04
def optIp4Multicast : Nat := 0x14

structure DottedQuad where
  a : UInt8
  b : UInt8
  c : UInt8
  d : UInt8
  deriving DecidableEq, Repr

def sdMulticast : DottedQuad := ⟨224, 224, 224, 245⟩

def inetAton (ip : DottedQuad) : Bytes := [ip.a, ip.b, ip.c, ip.d]

/-- `OSError` unless there are four bytes. -/
def inetNtoa : Bytes → Except PyError DottedQuad
  | [a, b, c, d] => .ok ⟨a, b, c, d⟩
  | _ => .error .osError

/-! ### Builders -/

/-- The last three of the four bytes of `!I`. -/
def packTtl (ttl : Nat) : Bytes := (beBytes 4 (ttl &&& 0xFFFFFF)).drop 1

def nOpts (nOptsRun1 nOptsRun2 : Nat) : Nat := ((nOptsRun1 &&& 0x0F) <<< 4) ||| (nOptsRun2 &&& 0x0F)

def buildServiceEntry (entryType serviceId instanceId ttl : Nat) (minorVersion : Nat := 0)
    (majorVersion : Nat := 1) (index1 : Nat := 0) (index2 : Nat := 0) (nOptsRun1 : Nat := 0)
    (nOptsRun2 : Nat := 0) : Bytes :=
  beBytes 1 (entryType &&& 0xFF) ++ beBytes 1 (index1 &&& 0xFF) ++ beBytes 1 (index2 &&& 0xFF) ++
    beBytes 1 (nOpts nOptsRun1 nOptsRun2 &&& 0xFF) ++ beBytes 2 (serviceId &&& 0xFFFF) ++
    beBytes 2 (instanceId &&& 0xFFFF) ++ beBytes 1 (majorVersion &&& 0xFF) ++ packTtl ttl ++
    beBytes 4 (minorVersion &&& 0xFFFFFFFF)

def buildEventgroupEntry (entryType serviceId instanceId eventgroupId ttl : Nat)
    (majorVersion : Nat := 1) (index1 : Nat := 0) (index2 : Nat := 0) (nOptsRun1 : Nat := 0)
    (nOptsRun2 : Nat := 0) : Bytes :=
  beBytes 1 (entryType &&& 0xFF) ++ beBytes 1 (index1 &&& 0xFF) ++ beBytes 1 (index2 &&& 0xFF) ++
    beBytes 1 (nOpts nOptsRun1 nOptsRun2 &&& 0xFF) ++ beBytes 2 (serviceId &&& 0xFFFF) ++
    beBytes 2 (instanceId &&& 0xFFFF) ++ beBytes 1 (majorVersion &&& 0xFF) ++ packTtl ttl ++
    beBytes 2 0x0000 ++ beBytes 2 (eventgroupId &&& 0xFFFF)

def buildIpv4EndpointOption (ip : DottedQuad) (port : Nat) (l4Proto : Nat := l4Udp) : Bytes :=
  beBytes 2 9 ++ beBytes 1 optIp4Endpoint ++ beBytes 1 0x00 ++ inetAton ip ++ beBytes 1 0x00 ++
    beBytes 1 (l4Proto &&& 0xFF) ++ beBytes 2 (port &&& 0xFFFF)

/-- `struct.pack("!I", value)`. -/
def structPackU32 (value : Nat) : Except PyError Bytes :=
  if value < 2 ^ 32 then .ok (beBytes 4 value) else .error .structError

def buildSdMessage (entries : Bytes) (options : Bytes := []) (sessionId : Nat := 1)
    (flags : Nat := flagUnicast) : Except PyError Bytes := do
  let length := 20 + entries.length + options.length
  let someipHeader ← structPackHeader {
    serviceId := sdServiceId
    methodId := sdMethodId
    length := length
    clientId := sdClientId
    sessionId := sessionId &&& 0xFFFF
    protocolVersion := sdProtocolVersion
    interfaceVersion := sdInterfaceVersion
    messageType := sdMessageType
    returnCode := sdReturnCode }
  let entriesLen ← structPackU32 entries.length
  let sdHeader := beBytes 1 (flags &&& 0xFF) ++ [0x00, 0x00, 0x00] ++ entriesLen
  let optionsLen ← structPackU32 options.length
  return someipHeader ++ sdHeader ++ entries ++ optionsLen ++ options

def buildFindService (serviceId instanceId : Nat) (sessionId : Nat := 1) (ttl : Nat := ttlDefault)
    (flags : Nat := flagUnicast) : Except PyError Bytes :=
  let entry := buildServiceEntry entryFindService serviceId instanceId ttl
  buildSdMessage entry [] sessionId flags

def buildOfferService (serviceId instanceId : Nat) (ip : DottedQuad) (port : Nat)
    (sessionId : Nat := 1) (ttl : Nat := ttlDefault) (minorVersion : Nat := 0)
    (flags : Nat := flagUnicast) : Except PyError Bytes :=
  let entry := buildServiceEntry entryOfferService serviceId instanceId ttl minorVersion 1 0 0 1
  let option := buildIpv4EndpointOption ip port
  buildSdMessage entry option sessionId flags

def buildStopOfferService (serviceId instanceId : Nat) (sessionId : Nat := 1) :
    Except PyError Bytes :=
  let entry := buildServiceEntry entryOfferService serviceId instanceId ttlStop
  buildSdMessage entry [] sessionId

def buildSubscribeEventgroup (serviceId instanceId eventgroupId : Nat) (ip : DottedQuad) (port : Nat)
    (sessionId : Nat := 1) (ttl : Nat := ttlDefault) : Except PyError Bytes :=
  let entry := buildEventgroupEntry entrySubscribeEventgroup serviceId instanceId eventgroupId ttl
  let option := buildIpv4EndpointOption ip port
  buildSdMessage entry option sessionId

/-! ### Parser -/

structure ParsedEntry where
  entryType : Nat
  serviceId : Nat
  instanceId : Nat
  majorVersion : Nat
  ttl : Nat
  minorVersion : Option Nat
  eventgroupId : Option Nat
  deriving DecidableEq, Repr

structure ParsedEndpoint where
  address : DottedQuad
  l4Proto : Nat
  port : Nat
  deriving DecidableEq, Repr

structure ParsedOption where
  optionType : Nat
  endpoint : Option ParsedEndpoint
  deriving DecidableEq, Repr

structure SdInfo where
  sessionId : Nat
  flags : Nat
  entries : List ParsedEntry
  options : List ParsedOption
  deriving DecidableEq, Repr

def parseEntry (chunk : Bytes) : Except PyError ParsedEntry := do
  let entryType ← getItem chunk 0
  let majorVersion ← getItem chunk 8
  return {
    entryType := entryType.toNat
    serviceId := beNat (slice chunk 4 6)
    instanceId := beNat (slice chunk 6 8)
    majorVersion := majorVersion.toNat
    ttl := beNat (slice chunk 9 12)
    minorVersion := if entryType.toNat ≤ 0x02 then some (beNat (slice chunk 12 16)) else none
    eventgroupId :=
      if 0x04 ≤ entryType.toNat ∧ entryType.toNat ≤ 0x07 then some (beNat (slice chunk 14 16))
      else none }

def parseOption (optType block : Nat) (optBytes : Bytes) : Except PyError ParsedOption :=
  if (optType = optIp4Endpoint ∨ optType = optIp4Multicast) ∧ 12 ≤ block then do
    let address ← inetNtoa (slice optBytes 4 8)
    let l4Proto ← getItem optBytes 9
    return {
      optionType := optType
      endpoint := some ⟨address, l4Proto.toNat, beNat (slice optBytes 10 12)⟩ }
  else .ok { optionType := optType, endpoint := none }

/-- The loop over the options, from a position on. The length field of an option leaves out the
field itself and the type. -/
def parseOptions (options : Bytes) (pos : Nat) : Except PyError (List ParsedOption) :=
  if pos < options.length then
    if options.length < pos + 4 then .error (.valueError "truncated option header")
    else do
      let optLength := beNat (slice options pos (pos + 2))
      let optType ← getItem options (pos + 2)
      let block := optLength + 3
      if options.length < pos + block then
        .error (.valueError "option length inconsistent with packet size")
      else do
        let option ← parseOption optType.toNat block (slice options pos (pos + block))
        let rest ← parseOptions options (pos + block)
        return option :: rest
  else .ok []
termination_by options.length - pos

def parseSd (packet : Bytes) : Except PyError SdInfo :=
  if packet.length < 16 then
    .error (.valueError s!"SD packet too short: {packet.length} bytes")
  else do
    let header ← structUnpackHeader (slice packet 0 16)
    if header.serviceId ≠ sdServiceId ∨ header.methodId ≠ sdMethodId then
      .error (.valueError
        s!"unexpected SD header: service 0x{formatX4 header.serviceId} method 0x{formatX4 header.methodId}")
    else if header.messageType ≠ sdMessageType then
      .error (.valueError s!"unexpected message_type {formatHex header.messageType} (SD는 0x02)")
    else do
      let flags ← getItem packet 16
      let entriesLen := beNat (slice packet 20 24)
      if packet.length < 24 + entriesLen + 4 then
        .error (.valueError
          s!"entries_len {entriesLen} inconsistent with packet size {packet.length}")
      else if entriesLen % 16 ≠ 0 then
        .error (.valueError s!"entries_len {entriesLen} not a multiple of 16")
      else do
        let entries := slice packet 24 (24 + entriesLen)
        let optionsOffset := 24 + entriesLen
        let optionsLen := beNat (slice packet optionsOffset (optionsOffset + 4))
        if packet.length < optionsOffset + 4 + optionsLen then
          .error (.valueError
            s!"options_len {optionsLen} inconsistent with packet size {packet.length}")
        else do
          let options := slice packet (optionsOffset + 4) (optionsOffset + 4 + optionsLen)
          let parsedEntries ← (List.range ((entriesLen + 15) / 16)).mapM fun i =>
            parseEntry (slice entries (16 * i) (16 * i + 16))
          let parsedOptions ← parseOptions options 0
          return {
            sessionId := header.sessionId
            flags := flags.toNat
            entries := parsedEntries
            options := parsedOptions }

end SdvZone.Mpu
