import SdvZone.EventOrder
import SdvZone.ZoneUdp

/-! The program that takes the place of the MCU on a PC (`MCU/tests/sd_host_sim.cpp`): it is linked with
`someip_sd.cpp` and runs against the sockets of `scripts/pc_sim_test.py`. Its receive loops are its own;
what it passes for is that the firmware comes through the same datagrams. -/

namespace SdvZone.HostSim

open Wire Machine

/-! ### The simulator -/

/-- What `recvfrom` returns, with the bytes it has put into `buf`; behind them nothing is read. -/
def recvfrom : Option Bytes → Int × Bytes
  | none => (-1, [])
  | some datagram => (min datagram.length 256, datagram.take 256)

/-- A pass of the loop that waits for an offer: `opt_ok`, once `offer_ok` is set. The TTL is not looked
at. -/
def offerOf (datagram : Option Bytes) : Option Bool :=
  let (n, buf) := recvfrom datagram
  if n < 16 then none
  else
    match Mcu.sdParse buf n.toNat with
    | (returned, parsed) =>
        if returned < 0 then none
        else
          let entry := (parsed.entries.toList.take parsed.entryCount.toNat).find? fun e =>
            e.type = Mcu.sdEntryOfferService ∧ e.serviceId.toNat = Mcu.serviceId ∧
              e.instanceId.toNat = Mcu.instanceId
          match entry with
          | none => none
          | some _ => some ((parsed.options.toList.take parsed.optionCount.toNat).any fun o =>
              o.type = Mcu.sdOptIp4Endpoint ∧ o.l4Proto = Mcu.sdL4Udp)

/-- The loop, with the number of passes left; behind the receptions there are only timeouts. -/
def awaitOffer : ℕ → List (Option Bytes) → Option Bool × List (Option Bytes)
  | 0, receptions => (none, receptions)
  | _, [] => (none, [])
  | tries + 1, reception :: rest =>
      match offerOf reception with
      | some optOk => (some optOk, rest)
      | none => awaitOffer tries rest

/-- `got_notify` and `got_heartbeat`. -/
structure Got where
  notify : Bool
  heartbeat : Bool
  deriving DecidableEq, Repr

/-- A pass of the loop that waits for the events. -/
def Got.hear (got : Got) (datagram : Option Bytes) : Got :=
  let (n, buf) := recvfrom datagram
  if n < 4 then got
  else
    let svc := (getU16 buf 0).toNat
    let method := (getU16 buf 2).toNat
    if svc ≠ Mcu.serviceId then got
    else if method = Mcu.eventNotify then { got with notify := true }
    else if method = Mcu.eventHeartbeat then { got with heartbeat := true }
    else got

def awaitEvents : ℕ → List (Option Bytes) → Got → Got
  | 0, _, got => got
  | _, [], got => got
  | tries + 1, reception :: rest, got =>
      if got.notify ∧ got.heartbeat then got else awaitEvents tries rest (got.hear reception)

/-- `CHECK`. -/
def check (cond : Bool) (failures : ℕ) : ℕ := if cond then failures else failures + 1

/-- From the first `sendto` on. The builders' results are `n` and `sn`, with `buf` and `sub`; `self_ip` is
the loopback address as well. -/
def main (memory : Vector UInt8 64) (sendto : Mcu.Outgoing → Int) (receptions : List (Option Bytes)) : Int :=
  let find := Mcu.sdBuildFindService memory.toList 64 (UInt16.ofNat Mcu.serviceId)
    (UInt16.ofNat Mcu.instanceId) 1
  let ret := sendto
    { address := Mcu.sdMulticastAddr, port := Mcu.someipPort, bytes := find.2.take find.1.toNat }
  let failures := check (ret = find.1) 0
  let offer := awaitOffer 8 receptions
  let failures := check offer.1.isSome failures
  let failures := check (offer.1 = some true) failures
  if offer.1 = none then 1
  else
    let sub := Mcu.sdBuildSubscribeEventgroup memory.toList 64 (UInt16.ofNat Mcu.serviceId)
      (UInt16.ofNat Mcu.instanceId) Mcu.sdEventgroupId Mcu.loopbackAddr Mcu.someipPort 2
    let sret := sendto { address := Mcu.loopbackAddr, port := Mcu.someipPort, bytes := sub.2.take sub.1.toNat }
    let failures := check (sret = sub.1) failures
    let got := awaitEvents 6 offer.2 ⟨false, false⟩
    let failures := check got.notify failures
    let failures := check got.heartbeat failures
    if failures = 0 then 0 else 1

/-! ### When it passes -/

theorem awaitOffer_some {tries : ℕ} {receptions rest : List (Option Bytes)} {optOk : Bool}
    (h : awaitOffer tries receptions = (some optOk, rest)) :
    ∃ before reception, receptions = before ++ reception :: rest ∧ offerOf reception = some optOk := by
  induction tries generalizing receptions with
  | zero => cases h
  | succ tries ih =>
      cases receptions with
      | nil => cases h
      | cons reception later =>
          rw [awaitOffer] at h
          split at h
          next optOk' hoffer =>
            cases h
            exact ⟨[], reception, rfl, hoffer⟩
          next =>
            obtain ⟨before, found, rfl, hoffer⟩ := ih h
            exact ⟨reception :: before, found, rfl, hoffer⟩

theorem check_zero {cond : Bool} {failures : ℕ} (h : check cond failures = 0) : cond = true ∧ failures = 0 := by
  rw [check] at h
  cases cond with
  | true => exact ⟨rfl, h⟩
  | false => cases h

/-- What a reception that sets one of the two is. -/
structure Heard (event : ℕ) (datagram : Bytes) : Prop where
  service : beNat (slice datagram 0 2) = Mcu.serviceId
  method : beNat (slice datagram 2 4) = event

theorem hear_cases (got : Got) (reception : Option Bytes) : got.hear reception = got ∨
    ∃ datagram, reception = some datagram ∧
      (Heard Mcu.eventNotify datagram ∧ got.hear reception = { got with notify := true } ∨
        Heard Mcu.eventHeartbeat datagram ∧ got.hear reception = { got with heartbeat := true }) := by
  cases reception with
  | none => exact .inl rfl
  | some datagram =>
      by_cases hshort : min (datagram.length : Int) 256 < 4
      · left
        rw [Got.hear, recvfrom]
        exact if_pos hshort
      · have hfield : ∀ k, k + 2 ≤ 4 →
            (getU16 (datagram.take 256) k).toNat = beNat (slice datagram k (k + 2)) := by
          intro k hk
          rw [getU16_toNat _ (by rw [List.length_take]; omega), slice_take _ (by omega)]
        have hhear : got.hear (some datagram) =
            if beNat (slice datagram 0 2) ≠ Mcu.serviceId then got
            else if beNat (slice datagram 2 4) = Mcu.eventNotify then { got with notify := true }
            else if beNat (slice datagram 2 4) = Mcu.eventHeartbeat then { got with heartbeat := true }
            else got := by
          rw [Got.hear, recvfrom, ← hfield 0 (by decide), ← hfield 2 (by decide)]
          exact if_neg hshort
        rw [hhear]
        by_cases hservice : beNat (slice datagram 0 2) = Mcu.serviceId
        · rw [if_neg (not_not.mpr hservice)]
          split
          next hnotify => exact .inr ⟨datagram, rfl, .inl ⟨⟨hservice, hnotify⟩, rfl⟩⟩
          next =>
            split
            next hheartbeat => exact .inr ⟨datagram, rfl, .inr ⟨⟨hservice, hheartbeat⟩, rfl⟩⟩
            next => exact .inl rfl
        · exact .inl (if_pos hservice)

theorem hear_notify {got : Got} {reception : Option Bytes} (hunset : got.notify = false)
    (hset : (got.hear reception).notify = true) :
    ∃ datagram, reception = some datagram ∧ Heard Mcu.eventNotify datagram := by
  rcases hear_cases got reception with hsame | ⟨datagram, rfl, ⟨hheard, -⟩ | ⟨-, hother⟩⟩
  · rw [hsame, hunset] at hset
    cases hset
  · exact ⟨datagram, rfl, hheard⟩
  · rw [hother] at hset
    exact absurd (hunset.symm.trans hset) Bool.false_ne_true

theorem hear_heartbeat {got : Got} {reception : Option Bytes} (hunset : got.heartbeat = false)
    (hset : (got.hear reception).heartbeat = true) :
    ∃ datagram, reception = some datagram ∧ Heard Mcu.eventHeartbeat datagram := by
  rcases hear_cases got reception with hsame | ⟨datagram, rfl, ⟨-, hother⟩ | ⟨hheard, -⟩⟩
  · rw [hsame, hunset] at hset
    cases hset
  · rw [hother] at hset
    exact absurd (hunset.symm.trans hset) Bool.false_ne_true
  · exact ⟨datagram, rfl, hheard⟩

/-- What is set in the end has been set by one of the receptions. -/
theorem awaitEvents_heard {view : Got → Bool} {event : ℕ}
    (hview : ∀ {got : Got} {reception : Option Bytes}, view got = false → view (got.hear reception) = true →
      ∃ datagram, reception = some datagram ∧ Heard event datagram)
    {tries : ℕ} {receptions : List (Option Bytes)} {got : Got} (hunset : view got = false)
    (hset : view (awaitEvents tries receptions got) = true) :
    ∃ datagram, some datagram ∈ receptions ∧ Heard event datagram := by
  induction tries generalizing receptions got with
  | zero => exact absurd (hunset.symm.trans hset) Bool.false_ne_true
  | succ tries ih =>
      cases receptions with
      | nil => exact absurd (hunset.symm.trans hset) Bool.false_ne_true
      | cons reception rest =>
          rw [awaitEvents] at hset
          split at hset
          next => exact absurd (hunset.symm.trans hset) Bool.false_ne_true
          next =>
            cases hnow : view (got.hear reception) with
            | true =>
                obtain ⟨datagram, rfl, hheard⟩ := hview hunset hnow
                exact ⟨datagram, List.mem_cons_self, hheard⟩
            | false =>
                obtain ⟨datagram, hmem, hheard⟩ := ih hnow hset
                exact ⟨datagram, List.mem_cons_of_mem _ hmem, hheard⟩

/-- The offer that it passes on, with what comes behind it. -/
structure Passes (offer : Option Bytes) (after : List (Option Bytes)) : Prop where
  offer : offerOf offer = some true
  notify : ∃ datagram, some datagram ∈ after ∧ Heard Mcu.eventNotify datagram
  heartbeat : ∃ datagram, some datagram ∈ after ∧ Heard Mcu.eventHeartbeat datagram

theorem main_zero {memory : Vector UInt8 64} {sendto : Mcu.Outgoing → Int} {receptions : List (Option Bytes)}
    (h : main memory sendto receptions = 0) :
    ∃ before offer after, receptions = before ++ offer :: after ∧ Passes offer after := by
  unfold main at h
  generalize hoffer : awaitOffer 8 receptions = answer at h
  obtain ⟨offer, rest⟩ := answer
  dsimp only at h
  split at h
  · cases h
  · split at h
    next hfailures =>
      obtain ⟨hheartbeat, hfailures⟩ := check_zero hfailures
      obtain ⟨hnotify, hfailures⟩ := check_zero hfailures
      obtain ⟨-, hfailures⟩ := check_zero hfailures
      obtain ⟨hoptOk, -⟩ := check_zero hfailures
      rw [of_decide_eq_true hoptOk] at hoffer
      obtain ⟨before, reception, hsplit, hok⟩ := awaitOffer_some hoffer
      exact ⟨before, reception, rest, hsplit, hok, awaitEvents_heard hear_notify rfl hnotify,
        awaitEvents_heard hear_heartbeat rfl hheartbeat⟩
    next => cases h

/-! ### The firmware in its place -/

/-- What the sockets of `pc_sim_test.py` send (a server that offers the service, `send_notify` and
`send_heartbeat`), and the two packets of the simulator or of the firmware, which come back to it. -/
inductive Traffic : Bytes → Prop where
  | offer (server : Mpu.SdServer) (hwanted : Udp.Wanted server) (calls : ℕ) : Traffic (server.offerPacket calls)
  | event (packet : Mpu.MpuPacket) : Traffic packet.bytes
  | own (sender : Udp.SdSender) (sessionId : UInt16) : Traffic (sender.packet sessionId).bytes

theorem own_service (sender : Udp.SdSender) (sessionId : UInt16) :
    beNat (slice (sender.packet sessionId).bytes 0 2) = 0xFFFF := by
  cases sender <;> exact Udp.service_messageOf _ _ _ _

/-- A datagram of which `sd_parse` finds no entry that is an offer. -/
theorem offerOf_none {datagram : Bytes} (hshort : datagram.length ≤ 256) {parsed : Mcu.SdParsed}
    {entry : Mcu.SdEntry} (hparse : Mcu.sdParse (datagram ++ []) datagram.length = (0, parsed))
    (hfound : Udp.entriesFound parsed = [entry]) (htype : entry.type ≠ Mcu.sdEntryOfferService) :
    offerOf (some datagram) = none := by
  rw [List.append_nil] at hparse
  have hmin : min (datagram.length : Int) 256 = datagram.length := by omega
  rw [Udp.entriesFound] at hfound
  simp only [offerOf, recvfrom, hmin, List.take_of_length_le hshort, Int.toNat_natCast, hparse, hfound]
  simp [htype]

/-- What it passes on is an offer. -/
theorem Traffic.offered {datagram : Bytes} (h : Traffic datagram) (hoffer : offerOf (some datagram) = some true) :
    ∃ server, Udp.Wanted server ∧ ∃ calls, datagram = server.offerPacket calls := by
  cases h with
  | offer server hwanted calls => exact ⟨server, hwanted, calls, rfl⟩
  | event packet =>
      have hrejects : Mcu.sdParse packet.bytes 24 = (-1, .zero) := by
        apply Sd.sdParse_rejects (Uart.packet_length packet).ge
        intro hdelimited
        have hservice := hdelimited.service
        rw [Zone.packet_service] at hservice
        cases hservice
      have htake : packet.bytes.take 256 = packet.bytes :=
        List.take_of_length_le (by rw [Uart.packet_length]; decide)
      rw [offerOf, recvfrom, htake, Uart.packet_length] at hoffer
      simp [hrejects] at hoffer
  | own sender sessionId =>
      have hnone : offerOf (some (sender.packet sessionId).bytes) = none := by
        cases sender with
        | find =>
            have hlength := Sd.findMessage_length 0x1234 0x5678 sessionId
            obtain ⟨parsed, hparse, -, hfound, -⟩ := Udp.sdParse_findMessage 0x1234 0x5678 sessionId []
            rw [← hlength] at hparse
            exact offerOf_none (hlength.symm ▸ by decide) hparse hfound (by decide)
        | subscribe =>
            have hlength := Sd.subscribeMessage_length 0x1234 0x5678 Mcu.sdEventgroupId ⟨127, 0, 0, 1⟩
              Mcu.someipPort sessionId
            obtain ⟨parsed, hparse, -, hfound, -⟩ := Udp.sdParse_subscribeMessage 0x1234 0x5678
              Mcu.sdEventgroupId Mcu.someipPort sessionId ⟨127, 0, 0, 1⟩ []
            rw [← hlength] at hparse
            exact offerOf_none (hlength.symm ▸ by decide) hparse hfound (by decide)
      rw [hnone] at hoffer
      cases hoffer

/-- What it takes for an event is one. -/
theorem Traffic.sent {datagram : Bytes} {event : ℕ} (h : Traffic datagram) (hheard : Heard event datagram) :
    ∃ packet : Mpu.MpuPacket, datagram = packet.bytes ∧ (Uart.mcuSent packet).1 = event := by
  have hservice := hheard.service
  cases h with
  | offer server hwanted calls =>
      rw [Udp.offerPacket_service] at hservice
      cases hservice
  | event packet => exact ⟨packet, rfl, (congrArg Prod.fst (Zone.packet_event packet)).symm.trans hheard.method⟩
  | own sender sessionId =>
      rw [own_service] at hservice
      cases hservice

/-- The datagram that a step brings in. -/
def received : Mcu.FirmwareStep → Option Bytes
  | .receiveUdp _ _ datagram => datagram
  | _ => none

theorem received_some {input : Mcu.FirmwareStep} {datagram : Bytes} (h : received input = some datagram) :
    ∃ memory sendto, input = .receiveUdp memory sendto (some datagram) := by
  cases input with
  | receiveUdp memory sendto found =>
      cases h
      exact ⟨memory, sendto, rfl⟩
  | tick | can | findService | lastFind | resyncUart | pollUart | dispatch => cases h

/-- The firmware answers an offer with a subscription. -/
theorem step_subscribes {firmware next : Mcu.Firmware} {input : Mcu.FirmwareStep} {server : Mpu.SdServer}
    {calls : ℕ} (hudp : Mcu.Firmware.OverUdp firmware) (hwanted : Udp.Wanted server)
    (hreceived : received input = some (server.offerPacket calls)) (hstep : firmware.step input = some next) :
    ∃ udp sessionId, next.transport = .udp udp ∧ Udp.subscribeOutgoing sessionId ∈ udp.sent := by
  obtain ⟨udp, htransport, -⟩ := hudp
  obtain ⟨memory, sendto, rfl⟩ := received_some hreceived
  have hsockets := Mcu.Firmware.step_sockets hstep htransport
  generalize next.transport = transport at hsockets
  cases hsockets with
  | keep hinput => exact absurd rfl (hinput _ _ _)
  | find _ _ hinput => cases hinput
  | receive _ _ _ hinput =>
      cases hinput
      refine ⟨_, udp.subscribeSession + 1, rfl, ?_⟩
      rw [Udp.someipUdpReceive_offer memory sendto udp hwanted calls, Udp.subscribed_one]
      exact List.mem_append_right _ List.mem_cons_self

/-- It hands an event to its caller. -/
theorem step_returns {firmware : Mcu.Firmware} {input : Mcu.FirmwareStep} {packet : Mpu.MpuPacket}
    (hudp : Mcu.Firmware.OverUdp firmware) (hreceived : received input = some packet.bytes) :
    ⟨packet.bytes, Uart.mcuSent packet⟩ ∈ firmware.returned input := by
  obtain ⟨udp, htransport, -⟩ := hudp
  obtain ⟨memory, sendto, rfl⟩ := received_some hreceived
  have hvalid : Uart.Notification packet.bytes := by
    refine ⟨?_, Zone.packet_service packet, ?_⟩ <;> simp [Uart.packet_bytes, Uart.eventWire, slice, beNat]
  have hevent := (Udp.someipUdpReceive_event_iff memory sendto udp
    (Uart.packet_length packet ▸ (by decide : 17 ≤ 24)) _).mpr ⟨hvalid, (Zone.packet_event packet).symm⟩
  rw [Mcu.Firmware.returned, htransport]
  dsimp only
  rw [hevent]
  exact List.mem_singleton.mpr rfl

theorem returns_of_received {firmware last : Mcu.Firmware} {steps : List Mcu.FirmwareStep}
    {packet : Mpu.MpuPacket}
    (hudp : ∀ front mid, exec Mcu.Firmware.step firmware front = some mid → Mcu.Firmware.OverUdp mid)
    (hrun : exec Mcu.Firmware.step firmware steps = some last)
    (hreceived : packet.bytes ∈ steps.filterMap received) :
    ∃ reception ∈ observe Mcu.Firmware.step Mcu.Firmware.returned firmware steps,
      reception.event = Uart.mcuSent packet := by
  obtain ⟨input, hinput, hbytes⟩ := List.mem_filterMap.mp hreceived
  obtain ⟨front, back, rfl⟩ := List.append_of_mem hinput
  obtain ⟨mid, next, hmid, -, -⟩ := exec_split hrun
  have hreturns := step_returns (hudp front mid hmid) hbytes
  exact ⟨_, view_subset_observe Mcu.Firmware.returned hmid input back hreturns, rfl⟩

/-- What the simulator hears an event in, a firmware that receives it later returns as that event. -/
theorem returns_of_heard {wdtReady : Bool} {front back : List Mcu.FirmwareStep} {next last : Mcu.Firmware}
    {datagram : Bytes} {event : ℕ}
    (hnext : exec Mcu.Firmware.step (.start wdtReady (.udp .static)) front = some next)
    (hrest : exec Mcu.Firmware.step next back = some last) (htraffic : Traffic datagram)
    (hheard : Heard event datagram) (hcomes : datagram ∈ back.filterMap received) :
    ∃ reception ∈ observe Mcu.Firmware.step Mcu.Firmware.returned next back, reception.event.1 = event := by
  obtain ⟨packet, rfl, hevent⟩ := htraffic.sent hheard
  have hudp : ∀ middle state, exec Mcu.Firmware.step next middle = some state → Mcu.Firmware.OverUdp state := by
    intro middle state hstate
    have hreached : exec Mcu.Firmware.step (.start wdtReady (.udp .static)) (front ++ middle) = some state := by
      rw [exec_append, hnext]
      exact hstate
    exact Mcu.Firmware.run_overUdp hreached
  obtain ⟨reception, hreturned, hsame⟩ := returns_of_received hudp hrest hcomes
  exact ⟨reception, hreturned, hsame ▸ hevent⟩

/-- When the simulator passes on what `pc_sim_test.py` sends, then a firmware that receives the same
datagrams, whatever else happens in between, subscribes and is told of a Notify and of a heartbeat
afterwards. -/
theorem pass_carries_over (memory : Vector UInt8 64) (sendto : Mcu.Outgoing → Int)
    (receptions : List (Option Bytes)) (hpass : main memory sendto receptions = 0)
    (htraffic : ∀ datagram, some datagram ∈ receptions → Traffic datagram) (wdtReady : Bool)
    (steps : List Mcu.FirmwareStep) (last : Mcu.Firmware)
    (hrun : exec Mcu.Firmware.step (.start wdtReady (.udp .static)) steps = some last)
    (hreceived : steps.filterMap received = receptions.reduceOption) :
    ∃ front back firmware udp sessionId, steps = front ++ back ∧
      exec Mcu.Firmware.step (.start wdtReady (.udp .static)) front = some firmware ∧
      firmware.transport = .udp udp ∧ Udp.subscribeOutgoing sessionId ∈ udp.sent ∧
      ∀ event ∈ [Mcu.eventNotify, Mcu.eventHeartbeat],
        ∃ reception ∈ observe Mcu.Firmware.step Mcu.Firmware.returned firmware back, reception.event.1 = event := by
  obtain ⟨before, offer, after, rfl, hoffer, hnotify, hheartbeat⟩ := main_zero hpass
  obtain ⟨datagram, rfl⟩ : ∃ datagram, offer = some datagram := by
    cases offer with
    | none => cases hoffer
    | some datagram => exact ⟨datagram, rfl⟩
  obtain ⟨server, hwanted, calls, rfl⟩ :=
    (htraffic datagram (List.mem_append_right _ List.mem_cons_self)).offered hoffer
  rw [List.reduceOption_append, List.reduceOption_cons_of_some, List.filterMap_eq_append_iff] at hreceived
  obtain ⟨early, late, rfl, -, hlate⟩ := hreceived
  obtain ⟨idle, input, back, rfl, -, hinput, hback⟩ := List.filterMap_eq_cons_iff.mp hlate
  rw [← List.append_assoc] at hrun ⊢
  obtain ⟨mid, next, hmid, hstep, hrest⟩ := exec_split hrun
  obtain ⟨udp, sessionId, htransport, hsubscribed⟩ :=
    step_subscribes (Mcu.Firmware.run_overUdp hmid) hwanted hinput hstep
  have hnext : exec Mcu.Firmware.step (.start wdtReady (.udp .static)) (early ++ idle ++ [input]) = some next :=
    (exec_snoc _ _ _ _).mpr ⟨mid, hmid, hstep⟩
  have hreturns : ∀ event, (∃ datagram, some datagram ∈ after ∧ Heard event datagram) →
      ∃ reception ∈ observe Mcu.Firmware.step Mcu.Firmware.returned next back, reception.event.1 = event := by
    rintro event ⟨datagram, hmem, hheard⟩
    have hcomes : datagram ∈ back.filterMap received := by
      rw [hback]
      exact List.mem_filterMap.mpr ⟨some datagram, hmem, rfl⟩
    exact returns_of_heard hnext hrest
      (htraffic datagram (List.mem_append_right _ (List.mem_cons_of_mem _ hmem))) hheard hcomes
  refine ⟨early ++ idle ++ [input], back, next, udp, sessionId, ?_, hnext, htransport, hsubscribed, ?_⟩
  · rw [List.append_assoc _ [input], List.singleton_append]
  · intro event hevent
    rcases List.mem_pair.mp hevent with rfl | rfl
    · exact hreturns _ hnotify
    · exact hreturns _ hheartbeat

/-- The simulator's own FindService, a timeout, an offer, a Notify and a heartbeat. -/
def simReceptions : List (Option Bytes) :=
  [some (Udp.SdSender.packet 1 .find).bytes, none,
    some ((Mpu.SdServer.init 0x1234 0x5678 ⟨127, 0, 0, 1⟩ 30490).offerPacket 0),
    some (Uart.packetOf (.notify 31) Uart.defaultSession).bytes,
    some (Uart.packetOf (.heartbeat 1) Uart.defaultSession).bytes]

/-- They come in one by one, and the Notify is dispatched before the heartbeat comes in. -/
def simSteps : List Mcu.FirmwareStep :=
  let receive (reception : Option Bytes) : List Mcu.FirmwareStep :=
    [.findService (Vector.replicate 64 0) (fun _ => 0), .receiveUdp (Vector.replicate 64 0) (fun _ => 56) reception]
  (simReceptions.take 4).flatMap receive ++ List.replicate 5 .dispatch ++ (simReceptions.drop 4).flatMap receive

theorem pass_carries_over_run :
    main (Vector.replicate 64 0) (fun packet => packet.bytes.length) simReceptions = 0 ∧
      ∃ front back firmware udp sessionId, simSteps = front ++ back ∧
        exec Mcu.Firmware.step (.start true (.udp .static)) front = some firmware ∧
        firmware.transport = .udp udp ∧ Udp.subscribeOutgoing sessionId ∈ udp.sent ∧
        ∀ event ∈ [Mcu.eventNotify, Mcu.eventHeartbeat],
          ∃ reception ∈ observe Mcu.Firmware.step Mcu.Firmware.returned firmware back,
            reception.event.1 = event := by
  have hpass : main (Vector.replicate 64 0) (fun packet => packet.bytes.length) simReceptions = 0 := by
    decide +kernel
  have hreached : (exec Mcu.Firmware.step (.start true (.udp .static)) simSteps).isSome = true := by
    decide +kernel
  obtain ⟨last, hrun⟩ := Option.isSome_iff_exists.mp hreached
  refine ⟨hpass, pass_carries_over (Vector.replicate 64 0) (fun packet => packet.bytes.length) simReceptions hpass
    ?_ true simSteps last hrun (by decide +kernel)⟩
  intro datagram hmem
  simp only [simReceptions, List.mem_cons, List.not_mem_nil, Option.some.injEq, or_false, reduceCtorEq,
    false_or] at hmem
  rcases hmem with rfl | rfl | rfl | rfl
  · exact .own .find 1
  · exact .offer _ ⟨rfl, rfl⟩ 0
  · exact .event _
  · exact .event _

end SdvZone.HostSim
