import SdvZone.McuServiceDiscovery
import SdvZone.McuSomeipUart

/-! The UDP half of `MCU/src/someip_service.cpp`: the receiver, and the service discovery client it
routes to. The session counters are the static variables of the two senders; the datagrams handed to
`zsock_sendto` are kept in order. What `zsock_sendto` returns is up to the network, and a local buffer
holds what the stack held before (`memory`). -/

namespace SdvZone.Mcu

open Wire

def someipPort : UInt16 := 30490
def instanceId : Nat := 0x5678
def sdEventgroupId : UInt16 := 0x0001

/-- `SD_MULTICAST_ADDR` and `INADDR_LOOPBACK`, in network order. -/
def sdMulticastAddr : Vector UInt8 4 := #v[224, 224, 224, 245]
def loopbackAddr : Vector UInt8 4 := #v[127, 0, 0, 1]

/-- A datagram and where it is sent. -/
structure Outgoing where
  address : Vector UInt8 4
  port : UInt16
  bytes : Bytes
  deriving DecidableEq, Repr

structure SomeipUdp where
  findSession : UInt16
  subscribeSession : UInt16
  sent : List Outgoing
  deriving DecidableEq, Repr

namespace SomeipUdp

def static : SomeipUdp := { findSession := 0, subscribeSession := 0, sent := [] }

section Senders

variable (memory : Vector UInt8 64) (sendto : Outgoing → Int)

/-- The value returned, and the state afterwards. The session id advances whatever comes of it. -/
def someipSdSendFind (udp : SomeipUdp) : Int × SomeipUdp :=
  let udp := { udp with findSession := udp.findSession + 1 }
  let (pktLen, buf) := sdBuildFindService memory.toList 64 (UInt16.ofNat serviceId)
    (UInt16.ofNat instanceId) udp.findSession
  if pktLen < 0 then (-1, udp)
  else
    let packet := { address := sdMulticastAddr, port := someipPort, bytes := buf.take pktLen.toNat }
    let udp := { udp with sent := udp.sent ++ [packet] }
    if sendto packet = pktLen then (0, udp) else (-1, udp)

def someipSdSendSubscribe (udp : SomeipUdp) : Int × SomeipUdp :=
  let selfIp : Vector UInt8 4 := #v[127, 0, 0, 1]
  let udp := { udp with subscribeSession := udp.subscribeSession + 1 }
  let (pktLen, buf) := sdBuildSubscribeEventgroup memory.toList 64 (UInt16.ofNat serviceId)
    (UInt16.ofNat instanceId) sdEventgroupId selfIp someipPort udp.subscribeSession
  if pktLen < 0 then (-1, udp)
  else
    let packet := { address := loopbackAddr, port := someipPort, bytes := buf.take pktLen.toNat }
    let udp := { udp with sent := udp.sent ++ [packet] }
    if sendto packet = pktLen then (0, udp) else (-1, udp)

/-- The option at which the loop over the options breaks. -/
def udpEndpoint (parsed : SdParsed) : Option SdOptionIp4 :=
  (parsed.options.toList.take parsed.optionCount.toNat).find? fun o =>
    o.type = sdOptIp4Endpoint ∧ o.l4Proto = sdL4Udp

/-- The body of the loop over the entries. A subscription is only logged. -/
def sdHandleEntry (parsed : SdParsed) (udp : SomeipUdp) (e : SdEntry) : SomeipUdp :=
  if e.type = sdEntryOfferService then
    if e.ttl = 0 then udp
    else if e.serviceId.toNat ≠ serviceId ∨ e.instanceId.toNat ≠ instanceId then udp
    else
      match udpEndpoint parsed with
      | some _ => (udp.someipSdSendSubscribe memory sendto).2
      | none => udp
  else udp

/-- The value returned is -1 in every case. -/
def someipSdHandle (udp : SomeipUdp) (buf : Bytes) (len : Nat) : SomeipUdp :=
  match sdParse buf len with
  | (returned, parsed) =>
      if returned < 0 then udp
      else
        (parsed.entries.toList.take parsed.entryCount.toNat).foldl
          (sdHandleEntry memory sendto parsed) udp

/-- At most 64 bytes of the datagram are copied and the rest is discarded; the value returned is the
number of bytes copied, or -1 when the timeout has passed without a datagram. -/
def zsockRecvfrom : Option Bytes → Int × Bytes
  | none => (-1, memory.toList)
  | some datagram => (min datagram.length 64, overwrite memory.toList 0 (datagram.take 64))

/-- The state afterwards, and the event if 0 is returned. -/
def someipUdpReceive (udp : SomeipUdp) (datagram : Option Bytes) : SomeipUdp × Option UartEvent :=
  let (ret, buf) := zsockRecvfrom memory datagram
  if ret < headerSize + 1 then (udp, none)
  else if beNat (slice buf 0 2) = sdServiceId.toNat then
    (udp.someipSdHandle memory sendto buf ret.toNat, none)
  else
    let length := beNat (slice buf 4 8)
    if beNat (slice buf 0 2) ≠ serviceId then (udp, none)
    else if beNat (slice buf 14 15) ≠ 0x02 then (udp, none)
    else if length < 8 ∨ 32 < length then (udp, none)
    else (udp, some (beNat (slice buf 2 4), getU8 buf headerSize))

end Senders

end SomeipUdp

end SdvZone.Mcu
