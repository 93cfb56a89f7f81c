import SdvZone.McuSomeipUdp
import SdvZone.SdBothBuilders

/-! The senders of service discovery packets on the MCU, over any sequence of calls. Each counts its
session ids in 16 bits, so the id after `0xFFFF` is 0; the MPU's server goes on with 1. -/

namespace SdvZone.Udp

open Wire Sd

/-! ### The packets -/

def findOutgoing (sessionId : UInt16) : Mcu.Outgoing :=
  { address := Mcu.sdMulticastAddr
    port := Mcu.someipPort
    bytes := findMessage 0x1234 0x5678 sessionId }

def subscribeOutgoing (sessionId : UInt16) : Mcu.Outgoing :=
  { address := Mcu.loopbackAddr
    port := Mcu.someipPort
    bytes := subscribeMessage 0x1234 0x5678 Mcu.sdEventgroupId ⟨127, 0, 0, 1⟩ Mcu.someipPort sessionId }

section Senders

variable (memory : Vector UInt8 64) (sendto : Mcu.Outgoing → Int)

/-- The packet of `someip_sd_send_find` always fits its buffer. -/
theorem someipSdSendFind_eq (udp : Mcu.SomeipUdp) :
    (udp.someipSdSendFind memory sendto).2 = { udp with
      findSession := udp.findSession + 1
      sent := udp.sent ++ [findOutgoing (udp.findSession + 1)] } := by
  have hbuild := sdBuildFindService_eq memory.toList 64 0x1234 0x5678 (udp.findSession + 1)
  rw [if_neg (by decide)] at hbuild
  have hbytes : (findMessage 0x1234 0x5678 (udp.findSession + 1) ++ memory.toList.drop 44).take 44 = _ :=
    List.take_left' (findMessage_length _ _ _)
  rw [Mcu.SomeipUdp.someipSdSendFind]
  dsimp only
  rw [show UInt16.ofNat Mcu.serviceId = 0x1234 from rfl,
    show UInt16.ofNat Mcu.instanceId = 0x5678 from rfl, hbuild]
  dsimp only
  rw [if_neg (by decide), show (44 : Int).toNat = 44 from rfl, hbytes]
  split <;> rfl

/-- So does the packet of `someip_sd_send_subscribe`. -/
theorem someipSdSendSubscribe_eq (udp : Mcu.SomeipUdp) :
    (udp.someipSdSendSubscribe memory sendto).2 = { udp with
      subscribeSession := udp.subscribeSession + 1
      sent := udp.sent ++ [subscribeOutgoing (udp.subscribeSession + 1)] } := by
  have hbuild := sdBuildSubscribeEventgroup_eq memory.toList 64 0x1234 0x5678 Mcu.sdEventgroupId
    ⟨127, 0, 0, 1⟩ Mcu.someipPort (udp.subscribeSession + 1)
  rw [if_neg (by decide)] at hbuild
  have hbytes : (subscribeMessage 0x1234 0x5678 Mcu.sdEventgroupId ⟨127, 0, 0, 1⟩ Mcu.someipPort
      (udp.subscribeSession + 1) ++ memory.toList.drop 56).take 56 = _ :=
    List.take_left' (subscribeMessage_length _ _ _ _ _ _)
  rw [Mcu.SomeipUdp.someipSdSendSubscribe]
  dsimp only
  rw [show UInt16.ofNat Mcu.serviceId = 0x1234 from rfl,
    show UInt16.ofNat Mcu.instanceId = 0x5678 from rfl, hbuild]
  dsimp only
  rw [if_neg (by decide), show (56 : Int).toNat = 56 from rfl, hbytes]
  split <;> rfl

end Senders

/-! ### Calls -/

inductive SdSender where
  | find
  | subscribe
  deriving DecidableEq, Repr

namespace SdSender

/-- Where the packets of a sender go. -/
def address : SdSender → Vector UInt8 4
  | find => Mcu.sdMulticastAddr
  | subscribe => Mcu.loopbackAddr

def session (udp : Mcu.SomeipUdp) : SdSender → UInt16
  | find => udp.findSession
  | subscribe => udp.subscribeSession

def packet (sessionId : UInt16) : SdSender → Mcu.Outgoing
  | find => findOutgoing sessionId
  | subscribe => subscribeOutgoing sessionId

end SdSender

/-- A call of a sender, with what the stack holds and what `zsock_sendto` returns. -/
structure SdCall where
  sender : SdSender
  memory : Vector UInt8 64
  sendto : Mcu.Outgoing → Int

def SdCall.run (udp : Mcu.SomeipUdp) (call : SdCall) : Mcu.SomeipUdp :=
  match call.sender with
  | .find => (udp.someipSdSendFind call.memory call.sendto).2
  | .subscribe => (udp.someipSdSendSubscribe call.memory call.sendto).2

def runCalls (calls : List SdCall) : Mcu.SomeipUdp := calls.foldl SdCall.run .static

/-- The session ids a sender has put into its packets, sent or not. -/
def sessionsOf (sender : SdSender) (udp : Mcu.SomeipUdp) : List UInt16 :=
  (udp.sent.filter fun packet => decide (packet.address = sender.address)).map fun packet =>
    getU16 packet.bytes 10

theorem run_sent (udp : Mcu.SomeipUdp) (call : SdCall) :
    (call.run udp).sent = udp.sent ++ [call.sender.packet (call.sender.session udp + 1)] := by
  unfold SdCall.run
  cases call.sender with
  | find => rw [someipSdSendFind_eq]; rfl
  | subscribe => rw [someipSdSendSubscribe_eq]; rfl

theorem run_session (udp : Mcu.SomeipUdp) (call : SdCall) (sender : SdSender) :
    sender.session (call.run udp) =
      if call.sender = sender then sender.session udp + 1 else sender.session udp := by
  unfold SdCall.run
  cases call.sender with
  | find => rw [someipSdSendFind_eq]; cases sender <;> rfl
  | subscribe => rw [someipSdSendSubscribe_eq]; cases sender <;> rfl

theorem packet_address (sender : SdSender) (sessionId : UInt16) :
    (sender.packet sessionId).address = sender.address := by
  cases sender <;> rfl

theorem address_injective : Function.Injective SdSender.address := by
  intro first second h
  cases first <;> cases second <;> first | rfl | exact absurd h (by decide)

/-- A message carries its session id. -/
theorem session_messageOf (entries : List Mpu.SdEntry) (options : List Mpu.SdOption)
    (sessionId : UInt16) (flags : ℕ) :
    getU16 (Mpu.messageOf entries options sessionId.toNat flags) 10 = sessionId := by
  have hlength := Mpu.messageOf_length entries options sessionId.toNat flags
  apply UInt16.toNat_inj.mp
  rw [getU16_toNat _ (by omega), Mpu.messageOf, Mpu.sessionId_sdMessage]
  exact Nat.mod_eq_of_lt sessionId.toNat_lt

theorem packet_session (sender : SdSender) (sessionId : UInt16) :
    getU16 (sender.packet sessionId).bytes 10 = sessionId := by
  cases sender <;> exact session_messageOf _ _ _ _

theorem sessionsOf_run (udp : Mcu.SomeipUdp) (call : SdCall) (sender : SdSender) :
    sessionsOf sender (call.run udp) =
      sessionsOf sender udp ++ if call.sender = sender then [sender.session udp + 1] else [] := by
  rw [sessionsOf, run_sent, List.filter_append, List.map_append, sessionsOf]
  congr 1
  by_cases hsender : call.sender = sender
  · subst hsender
    rw [List.filter_cons_of_pos (by rw [packet_address]; exact decide_eq_true rfl), if_pos rfl,
      List.filter_nil, List.map_singleton, packet_session]
  · have haddress : (call.sender.packet (call.sender.session udp + 1)).address ≠ sender.address := by
      rw [packet_address]
      exact fun heq => hsender (address_injective heq)
    rw [List.filter_cons_of_neg (by simpa using haddress), if_neg hsender]
    rfl

/-- The counters count calls, modulo their range. -/
theorem runCalls_counts (calls : List SdCall) (sender : SdSender) :
    sender.session (runCalls calls) =
        UInt16.ofNat (calls.countP fun call => decide (call.sender = sender)) ∧
      sessionsOf sender (runCalls calls) =
        (List.range (calls.countP fun call => decide (call.sender = sender))).map fun i =>
          UInt16.ofNat (i + 1) := by
  induction calls using List.reverseRecOn with
  | nil => cases sender <;> exact ⟨rfl, rfl⟩
  | append_singleton calls call ih =>
      obtain ⟨hsession, hsessions⟩ := ih
      have hlast : runCalls (calls ++ [call]) = call.run (runCalls calls) := by
        rw [runCalls, List.foldl_append]
        rfl
      rw [hlast, run_session, sessionsOf_run, List.countP_append, hsession, hsessions]
      by_cases hsender : call.sender = sender
      · rw [if_pos hsender, if_pos hsender, List.countP_singleton, if_pos (decide_eq_true hsender),
          List.range_succ, List.map_append, UInt16.ofNat_add]
        exact ⟨rfl, by rw [List.map_singleton, UInt16.ofNat_add]; rfl⟩
      · rw [if_neg hsender, if_neg hsender, List.countP_singleton,
          if_neg (by simpa using hsender), Nat.add_zero, List.append_nil]
        exact ⟨rfl, rfl⟩

/-! ### Wrapping around -/

/-- The numbering of `SdServer`: from 1 to 65535 and around. -/
def SkipsZero (sessions : List UInt16) : Prop :=
  ∀ k ≥ 1, ∀ session, sessions[k - 1]? = some session → session.toNat = (k - 1) % 65535 + 1

/-- Counting in 16 bits is that numbering up to its first turn. -/
theorem skipsZero_count (count : ℕ) :
    SkipsZero ((List.range count).map fun i => UInt16.ofNat (i + 1)) ↔ count ≤ 65535 := by
  constructor
  · intro hskips
    by_contra hturn
    have hzero := hskips 65536 (by decide) (UInt16.ofNat 65536) (by
      rw [List.getElem?_map, List.getElem?_range (by omega)]
      rfl)
    revert hzero
    decide
  · intro hcount k hk session hsession
    rw [List.getElem?_map, Option.map_eq_some_iff] at hsession
    obtain ⟨i, hi, rfl⟩ := hsession
    obtain ⟨hlt, rfl⟩ := List.getElem?_eq_some_iff.mp hi
    rw [List.length_range] at hlt
    rw [List.getElem_range, UInt16.toNat_ofNat']
    omega

/-- The senders number their packets like `SdServer` up to its first turn. -/
theorem skipsZero_iff (calls : List SdCall) :
    (∀ sender, SkipsZero (sessionsOf sender (runCalls calls))) ↔
      ∀ sender, (calls.countP fun call => decide (call.sender = sender)) ≤ 65535 := by
  apply forall_congr'
  intro sender
  rw [(runCalls_counts calls sender).2]
  exact skipsZero_count _

/-- The 65536th FindService carries the session id 0. -/
theorem session_zero :
    ¬ ∀ (calls : List SdCall) (sender : SdSender), SkipsZero (sessionsOf sender (runCalls calls)) := by
  intro hall
  have hskips := hall (List.replicate 65536 ⟨.find, Vector.replicate 64 0, fun _ => 44⟩) .find
  rw [(runCalls_counts _ _).2, List.countP_replicate, if_pos (decide_eq_true rfl), skipsZero_count]
    at hskips
  exact absurd hskips (by decide)

end SdvZone.Udp
