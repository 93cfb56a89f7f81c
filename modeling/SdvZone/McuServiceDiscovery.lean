import SdvZone.WireBytes

/-! Service discovery on the MCU (`MCU/src/someip_sd.cpp`): two builders that write a packet into a
buffer of their caller, and `sd_parse`, which reads a buffer up to a length. Pointers are not null.
Sizes and offsets (`size_t`, `uint32_t`) are natural numbers, and a buffer is the memory its pointer
points to, which may go on behind the length. -/

namespace SdvZone.Mcu

open Wire

def sdServiceId : UInt16 := 0xFFFF
def sdMethodId : UInt16 := 0x8100
def sdClientId : UInt16 := 0x0000
def sdProtocolVersion : UInt8 := 0x01
def sdInterfaceVersion : UInt8 := 0x01
def sdMessageType : UInt8 := 0x02
def sdReturnCode : UInt8 := 0x00
def sdFlagUnicast : UInt8 := 0x40

def sdEntryFindService : UInt8 := 0x00
def sdEntryOfferService : UInt8 := 0x01
def sdEntrySubscribeEventgroup : UInt8 := 0x06
def sdEntrySubscribeEventgroupAck : UInt8 := 0x07

def sdOptIp4Endpoint : UInt8 := 0x04
def sdL4Udp : UInt8 := 0x11
def sdTtlDefault : UInt32 := 0xFFFFFF

def sdEntrySize : Nat := 16
def sdIp4OptionSize : Nat := 12
def sdMaxEntries : Nat := 4
def sdMaxOptions : Nat := 4

/-- The SOME/IP and the SD header. -/
def hdrSize : Nat := 16 + 8

/-! ### Builders -/

/-- The parts of a packet that its builder chooses are the length and the session id. -/
def putSomeipHeader (out : Bytes) (p : Nat) (length : UInt32) (sessionId : UInt16) : Bytes :=
  let out := putU16 out (p + 0) sdServiceId
  let out := putU16 out (p + 2) sdMethodId
  let out := putU32 out (p + 4) length
  let out := putU16 out (p + 8) sdClientId
  let out := putU16 out (p + 10) sessionId
  let out := putU8 out (p + 12) sdProtocolVersion
  let out := putU8 out (p + 13) sdInterfaceVersion
  let out := putU8 out (p + 14) sdMessageType
  putU8 out (p + 15) sdReturnCode

/-- The flags, the reserved bytes and the length of the entries. -/
def putSdHeader (out : Bytes) (entriesLen : UInt32) : Bytes :=
  let out := putU8 out 16 sdFlagUnicast
  let out := putU8 out 17 0
  let out := putU8 out 18 0
  let out := putU8 out 19 0
  putU32 out 20 entriesLen

def putEntry (out : Bytes) (p : Nat) (type : UInt8) (serviceId instanceId : UInt16)
    (majorVersion : UInt8) (ttl : UInt32) (eventgroupId : UInt16) : Bytes :=
  let out := putU8 out p type
  let out := putU8 out (p + 1) 0
  let out := putU8 out (p + 2) 0
  let out := putU8 out (p + 3) 0
  let out := putU16 out (p + 4) serviceId
  let out := putU16 out (p + 6) instanceId
  let out := putU8 out (p + 8) majorVersion
  let out := putU8 out (p + 9) (ttl >>> 16).toUInt8
  let out := putU8 out (p + 10) (ttl >>> 8).toUInt8
  let out := putU8 out (p + 11) ttl.toUInt8
  if type = sdEntrySubscribeEventgroup ∨ type = sdEntrySubscribeEventgroupAck then
    let out := putU16 out (p + 12) 0
    putU16 out (p + 14) eventgroupId
  else putU32 out (p + 12) 0

def putIp4Option (out : Bytes) (p : Nat) (ip : Vector UInt8 4) (port : UInt16) (l4Proto : UInt8) :
    Bytes :=
  let out := putU16 out (p + 0) 9
  let out := putU8 out (p + 2) sdOptIp4Endpoint
  let out := putU8 out (p + 3) 0
  let out := overwrite out (p + 4) ip.toList
  let out := putU8 out (p + 8) 0
  let out := putU8 out (p + 9) l4Proto
  putU16 out (p + 10) port

/-- The value returned, and the buffer afterwards. -/
def sdBuildFindService (out : Bytes) (cap : Nat) (serviceId instanceId sessionId : UInt16) :
    Int × Bytes :=
  let pktLen := 16 + 8 + sdEntrySize + 4
  if cap < pktLen then (-1, out)
  else
    let out := putSomeipHeader out 0 (UInt32.ofNat (20 + sdEntrySize)) sessionId
    let out := putSdHeader out (UInt32.ofNat sdEntrySize)
    let out := putEntry out 24 sdEntryFindService serviceId instanceId 1 sdTtlDefault 0
    let out := putU32 out 40 0
    (pktLen, out)

def sdBuildSubscribeEventgroup (out : Bytes) (cap : Nat)
    (serviceId instanceId eventgroupId : UInt16) (ip : Vector UInt8 4) (port sessionId : UInt16) :
    Int × Bytes :=
  let pktLen := 16 + 8 + sdEntrySize + 4 + sdIp4OptionSize
  if cap < pktLen then (-1, out)
  else
    let out := putSomeipHeader out 0 (UInt32.ofNat (20 + sdEntrySize + sdIp4OptionSize)) sessionId
    let out := putSdHeader out (UInt32.ofNat sdEntrySize)
    let out := putEntry out 24 sdEntrySubscribeEventgroup serviceId instanceId 1 sdTtlDefault
      eventgroupId
    let out := putU32 out 40 (UInt32.ofNat sdIp4OptionSize)
    let out := putIp4Option out 44 ip port sdL4Udp
    (pktLen, out)

/-! ### Parser -/

structure SdEntry where
  type : UInt8
  serviceId : UInt16
  instanceId : UInt16
  majorVersion : UInt8
  ttl : UInt32
  eventgroupId : UInt16
  deriving DecidableEq, Repr

structure SdOptionIp4 where
  type : UInt8
  address : Vector UInt8 4
  l4Proto : UInt8
  port : UInt16
  deriving DecidableEq, Repr

structure SdParsed where
  flags : UInt8
  sessionId : UInt16
  entryCount : UInt8
  entries : Vector SdEntry 4
  optionCount : UInt8
  options : Vector SdOptionIp4 4
  deriving DecidableEq, Repr

def SdEntry.zero : SdEntry :=
  { type := 0, serviceId := 0, instanceId := 0, majorVersion := 0, ttl := 0, eventgroupId := 0 }

def SdOptionIp4.zero : SdOptionIp4 :=
  { type := 0, address := Vector.replicate 4 0, l4Proto := 0, port := 0 }

/-- What `memset` leaves. -/
def SdParsed.zero : SdParsed :=
  { flags := 0
    sessionId := 0
    entryCount := 0
    entries := Vector.replicate 4 .zero
    optionCount := 0
    options := Vector.replicate 4 .zero }

/-- The entry at a position of the buffer. -/
def readEntry (buf : Bytes) (e : Nat) : SdEntry :=
  let type := getU8 buf e
  { type := type
    serviceId := getU16 buf (e + 4)
    instanceId := getU16 buf (e + 6)
    majorVersion := getU8 buf (e + 8)
    ttl := ((getU8 buf (e + 9)).toUInt32 <<< 16) ||| ((getU8 buf (e + 10)).toUInt32 <<< 8) |||
      (getU8 buf (e + 11)).toUInt32
    eventgroupId :=
      if type = sdEntrySubscribeEventgroup ∨ type = sdEntrySubscribeEventgroupAck then
        getU16 buf (e + 14)
      else 0 }

/-- The IPv4 endpoint option at a position of the buffer. -/
def readOption (buf : Bytes) (o : Nat) : SdOptionIp4 :=
  { type := getU8 buf (o + 2)
    address := #v[getU8 buf (o + 4), getU8 buf (o + 5), getU8 buf (o + 6), getU8 buf (o + 7)]
    l4Proto := getU8 buf (o + 9)
    port := getU16 buf (o + 10) }

/-- The loop over the entries, `count` of which are read. -/
def readEntries (buf : Bytes) (count : Nat) (h : count ≤ sdMaxEntries) (entries : Vector SdEntry 4) :
    Vector SdEntry 4 :=
  count.fold
    (fun i hi entries => entries.set i (readEntry buf (hdrSize + sdEntrySize * i))
      (by unfold sdMaxEntries at h; omega))
    entries

/-- The loop over the options, which lie from `base` on, when `left` may still be read. -/
def readOptions (buf : Bytes) (base optionsLen : Nat) : Nat → Nat → SdParsed → SdParsed
  | 0, _, out => out
  | left + 1, optOff, out =>
      if optOff + 3 ≤ optionsLen then
        let i := sdMaxOptions - (left + 1)
        let o := base + optOff
        let block := 3 + (getU16 buf (o + 0)).toNat
        if optionsLen - optOff < block then out
        else if getU8 buf (o + 2) = sdOptIp4Endpoint ∧ sdIp4OptionSize ≤ block then
          readOptions buf base optionsLen left (optOff + block) { out with
            options := out.options.set i (readOption buf o) (by simp only [i, sdMaxOptions]; omega)
            optionCount := UInt8.ofNat (i + 1) }
        else readOptions buf base optionsLen left (optOff + block) out
      else out

/-- The value returned, and `*out` afterwards. -/
def sdParse (buf : Bytes) (len : Nat) : Int × SdParsed :=
  let out := SdParsed.zero
  if len < hdrSize + 4 then (-1, out)
  else if getU16 buf 0 ≠ sdServiceId ∨ getU16 buf 2 ≠ sdMethodId then (-1, out)
  else
    let entriesLen := (getU32 buf 20).toNat
    if h : entriesLen % sdEntrySize ≠ 0 ∨ sdMaxEntries < entriesLen / sdEntrySize then (-1, out)
    else if len < hdrSize + entriesLen + 4 then (-1, out)
    else
      let optionsLen := (getU32 buf (hdrSize + entriesLen)).toNat
      if len - (hdrSize + entriesLen + 4) < optionsLen then (-1, out)
      else
        let out := { out with
          flags := getU8 buf 16
          sessionId := getU16 buf 10
          entryCount := UInt8.ofNat (entriesLen / sdEntrySize)
          entries := readEntries buf (entriesLen / sdEntrySize)
            (Nat.le_of_not_lt fun hmany => h (Or.inr hmany)) out.entries }
        (0, readOptions buf (hdrSize + entriesLen + 4) optionsLen sdMaxOptions 0 out)

end SdvZone.Mcu
