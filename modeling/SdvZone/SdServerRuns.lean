import SdvZone.MpuSdServer
import SdvZone.SdPackets

/-! What a server sends over whole runs: the session ids count the calls of `offer_once` from 1 to
65535 and around, whatever becomes of the datagrams, and the reboot flag belongs to the first call. What
is left of the thread of `start` when `stop` is called. -/

namespace SdvZone.Mpu

open Wire Machine

namespace SdServer

/-- The server after some calls of `offer_once`. -/
def after (server : SdServer) (calls : ℕ) : SdServer :=
  { server with session := calls % 65535 + 1, first := decide (calls = 0) }

theorem entryOfferService_le : entryOfferService ≤ 0x02 := by decide

/-- The packet of the next call. -/
def offerPacket (server : SdServer) (calls : ℕ) : Bytes :=
  messageOf [serviceEntry entryOfferService entryOfferService_le server.serviceId server.instanceId ttlDefault 0 1]
    [udpOption server.ip server.port] (calls % 65535 + 1) (if calls = 0 then 0xC0 else 0x40)

theorem offerOnce_after (server : SdServer) (calls : ℕ) :
    (server.after calls).offerOnce =
      .ok (⟨server.offerPacket calls, server.multicast, server.sdPort⟩, server.after (calls + 1)) := by
  have hflags : (if (server.after calls).first then flagReboot ||| flagUnicast else flagUnicast) =
      if calls = 0 then 0xC0 else 0x40 := by
    simp only [after, decide_eq_true_eq]
    rfl
  have hsession : (if 0xFFFF < (server.after calls).session + 1 then 1
      else (server.after calls).session + 1) = (calls + 1) % 65535 + 1 := by
    have hnow : (server.after calls).session = calls % 65535 + 1 := rfl
    rw [hnow]
    split <;> omega
  have hnext : { server.after calls with
      first := false
      session := if 0xFFFF < (server.after calls).session + 1 then 1
        else (server.after calls).session + 1 } = server.after (calls + 1) := by
    rw [hsession]
    rfl
  rw [offerOnce, hflags, buildOfferService_eq]
  exact congrArg (fun next => Except.ok (_, next)) hnext

end SdServer

namespace SdProcess

/-- The calls so far have counted the session up and built the packets of their numbers. -/
structure Numbered (server : SdServer) (outcomes : List Bool) (process : SdProcess) : Prop where
  server_eq : process.server = server.after process.calls.length
  raised_eq : process.calls.map OfferCall.raised = outcomes
  sent_eq : ∀ (k : ℕ) (call : OfferCall), process.calls[k]? = some call →
    call.sent = ⟨server.offerPacket k, server.multicast, server.sdPort⟩

theorem Numbered.callOfferOnce {server : SdServer} {outcomes : List Bool} {process : SdProcess}
    (h : Numbered server outcomes process) (raised : Bool) :
    Numbered server (outcomes ++ [raised]) (process.callOfferOnce raised).1 ∧
      (process.callOfferOnce raised).2 = if raised then some .osError else none := by
  have hcall := server.offerOnce_after process.calls.length
  rw [← h.server_eq] at hcall
  unfold SdProcess.callOfferOnce
  rw [hcall]
  refine ⟨⟨?_, ?_, fun k call hk => ?_⟩, rfl⟩
  · rw [List.length_append, List.length_singleton]
  · rw [List.map_append, h.raised_eq]
    rfl
  · rcases lt_or_ge k process.calls.length with hlt | hge
    · rw [List.getElem?_append_left hlt] at hk
      exact h.sent_eq k call hk
    · rw [List.getElem?_append_right hge, List.getElem?_singleton] at hk
      split at hk
      next hlast =>
        cases hk
        rw [le_antisymm hge (by omega)]
      next => cases hk

/-- Steps that call nothing keep the count. -/
theorem Numbered.frame {server : SdServer} {outcomes : List Bool} {process next : SdProcess}
    (h : Numbered server outcomes process) (hserver : next.server = process.server)
    (hcalls : next.calls = process.calls) : Numbered server outcomes next := by
  obtain ⟨hcount, hraised, hsent⟩ := h
  rw [← hcalls] at hcount hraised hsent
  exact ⟨hserver.trans hcount, hraised, hsent⟩

theorem start_frame (process : SdProcess) :
    process.start.server = process.server ∧ process.start.calls = process.calls := by
  unfold start
  split <;> exact ⟨rfl, rfl⟩

theorem stop_frame (process : SdProcess) :
    process.stop.server = process.server ∧ process.stop.calls = process.calls := by
  unfold stop
  split <;> exact ⟨rfl, rfl⟩

theorem Numbered.loopOffer {server : SdServer} {outcomes : List Bool} {process : SdProcess}
    (h : Numbered server outcomes process) (raised : Bool) :
    Numbered server (outcomes ++ [raised]) (process.loopOffer raised) := by
  have hnext := (h.callOfferOnce raised).1
  unfold SdProcess.loopOffer
  split
  next heq =>
    rw [heq] at hnext
    exact hnext.frame rfl rfl
  next heq =>
    rw [heq] at hnext
    exact hnext.frame rfl rfl
  next heq =>
    rw [heq] at hnext
    exact hnext.frame rfl rfl

/-- A step calls `offer_once`, or it leaves the server and the record of the calls alone. -/
theorem step_cases {process next : SdProcess} {action : SdAction}
    (hstep : process.step action = some next) :
    (∃ raised, action.outcome = some raised ∧
      (next = (process.callOfferOnce raised).1 ∨ next = process.loopOffer raised)) ∨
    (action.outcome = none ∧ next.server = process.server ∧ next.calls = process.calls) := by
  cases action with
  | offerOnce raised =>
      cases hstep
      exact Or.inl ⟨raised, rfl, Or.inl rfl⟩
  | loopOffer raised =>
      obtain ⟨-, hnext⟩ := Option.ite_none_right_eq_some.mp hstep
      cases hnext
      exact Or.inl ⟨raised, rfl, Or.inr rfl⟩
  | start =>
      obtain ⟨-, hnext⟩ := Option.ite_none_left_eq_some.mp hstep
      cases hnext
      exact Or.inr ⟨rfl, start_frame process⟩
  | stop =>
      obtain ⟨-, hnext⟩ := Option.ite_none_left_eq_some.mp hstep
      cases hnext
      exact Or.inr ⟨rfl, stop_frame process⟩
  | joined =>
      obtain ⟨-, hnext⟩ := Option.ite_none_right_eq_some.mp hstep
      cases hnext
      exact Or.inr ⟨rfl, rfl, rfl⟩
  | loopCheck =>
      obtain ⟨-, hnext⟩ := Option.ite_none_right_eq_some.mp hstep
      cases hnext
      exact Or.inr ⟨rfl, rfl, rfl⟩
  | loopWake =>
      obtain ⟨-, hnext⟩ := Option.ite_none_right_eq_some.mp hstep
      cases hnext
      exact Or.inr ⟨rfl, rfl, rfl⟩

theorem Numbered.step {server : SdServer} {outcomes : List Bool} {process next : SdProcess}
    {action : SdAction} (h : Numbered server outcomes process)
    (hstep : process.step action = some next) :
    Numbered server (outcomes ++ action.outcome.toList) next := by
  rcases step_cases hstep with ⟨raised, houtcome, hnext⟩ | ⟨houtcome, hserver, hcalls⟩
  · rw [houtcome, Option.toList_some]
    rcases hnext with rfl | rfl
    · exact (h.callOfferOnce raised).1
    · exact h.loopOffer raised
  · rw [houtcome, Option.toList_none, List.append_nil]
    exact h.frame hserver hcalls

/-- Every run of a new server counts its calls. -/
theorem numbered_run {server : SdServer} (hsession : server.session = 1) (hfirst : server.first = true)
    {actions : List SdAction} {process : SdProcess}
    (hrun : exec step (boot server) actions = some process) :
    Numbered server (sendOutcomes actions) process := by
  refine exec_induction (boot server) (fun actions process =>
    Numbered server (sendOutcomes actions) process) ?_ ?_ actions process hrun
  · refine ⟨?_, rfl, fun k call hk => ?_⟩
    · cases server
      cases hsession
      cases hfirst
      rfl
    · cases hk
  · intro actions mid action last _ hmid hstep
    have hlast : List.filterMap SdAction.outcome [action] = action.outcome.toList := by
      cases action <;> rfl
    rw [sendOutcomes, List.filterMap_append, hlast]
    exact hmid.step hstep

/-- The packets built carry the numbers of their calls, in whatever order the loop, its restarts and
other callers make them and whatever `sendto` does. -/
theorem session_numbering (serviceId instanceId port : Fin (2 ^ 16)) (ip multicast : DottedQuad)
    (sdPort : ℕ) {actions : List SdAction} {process : SdProcess}
    (hrun : exec step (boot (SdServer.init serviceId instanceId ip port multicast sdPort)) actions =
      some process) :
    process.calls.map OfferCall.raised = sendOutcomes actions ∧
      (∀ k ≥ 1, ∀ call, process.calls[k - 1]? = some call → parseSd call.sent.packet =
        .ok {
          sessionId := (k - 1) % 65535 + 1
          flags := if k = 1 then 0xC0 else 0x40
          entries := [{
            entryType := entryOfferService
            serviceId := serviceId
            instanceId := instanceId
            majorVersion := 1
            ttl := 0xFFFFFF
            minorVersion := some 0
            eventgroupId := none }]
          options := [{ optionType := optIp4Endpoint, endpoint := some ⟨ip, l4Udp, port⟩ }] }) ∧
      1 ≤ process.server.session ∧ process.server.session ≤ 65535 := by
  have hnumbered := numbered_run rfl rfl hrun
  refine ⟨hnumbered.raised_eq, fun k hk call hcall => ?_, ?_⟩
  · have hsession : ((k - 1) % 65535 + 1) % 2 ^ 16 = (k - 1) % 65535 + 1 :=
      Nat.mod_eq_of_lt (by omega)
    have hflags : (if k - 1 = 0 then 0xC0 else 0x40) % 2 ^ 8 = if k = 1 then 0xC0 else 0x40 := by
      have hfirst : k - 1 = 0 ↔ k = 1 := by omega
      simp only [hfirst]
      split <;> rfl
    have hentry : (serviceEntry entryOfferService (by decide) serviceId instanceId ttlDefault 0 1).parsed =
        { entryType := entryOfferService
          serviceId := serviceId
          instanceId := instanceId
          majorVersion := 1
          ttl := 0xFFFFFF
          minorVersion := some 0
          eventgroupId := none } := by
      simp only [serviceEntry, SdEntry.parsed, residue_val]
      rfl
    have hoption : (udpOption ip port).parsed =
        { optionType := optIp4Endpoint, endpoint := some ⟨ip, l4Udp, port⟩ } := by
      simp only [udpOption, SdOption.parsed, residue_val]
      rfl
    rw [hnumbered.sent_eq _ call hcall]
    show parseSd (messageOf _ _ _ _) = _
    rw [messageOf, parseSd_sdMessage _ _ _ _ (by simp), hsession, hflags]
    show Except.ok (SdInfo.mk _ _ [_] [_]) = _
    rw [← hentry, ← hoption]
    rfl
  · rw [hnumbered.server_eq, SdServer.after]
    show 1 ≤ _ % 65535 + 1 ∧ _ % 65535 + 1 ≤ 65535
    omega

/-- A server restarted after a failed send, and called once from outside. -/
def restarted : List SdAction :=
  [.start, .loopCheck, .loopOffer true, .stop, .loopWake, .loopCheck, .joined, .offerOnce false, .start,
    .loopCheck, .loopOffer false]

theorem session_numbering_restarted :
    ∃ process call, exec step (boot (SdServer.init 0x1234 0x5678 ⟨10, 0, 0, 1⟩ 30500)) restarted =
        some process ∧
      process.calls[2]? = some call ∧ parseSd call.sent.packet =
        .ok {
          sessionId := 3
          flags := 0x40
          entries := [{
            entryType := entryOfferService
            serviceId := 0x1234
            instanceId := 0x5678
            majorVersion := 1
            ttl := 0xFFFFFF
            minorVersion := some 0
            eventgroupId := none }]
          options := [{ optionType := optIp4Endpoint, endpoint := some ⟨⟨10, 0, 0, 1⟩, l4Udp, 30500⟩ }] } :=
  ⟨_, _, rfl, rfl, (@session_numbering 0x1234 0x5678 30500 ⟨10, 0, 0, 1⟩ sdMulticast Mpu.sdPort restarted
    _ rfl).2.1 3 (by decide) _ rfl⟩

/-! ### The reboot announcement -/

/-- The first packet carries the reboot and the unicast flag, the later ones the unicast flag. -/
def Announced : List SentTo → Prop
  | [] => True
  | first :: later =>
      getU8 first.packet 16 = 0xC0 ∧ ∀ packet ∈ later.map SentTo.packet, getU8 packet 16 = 0x40

theorem flags_offerPacket (server : SdServer) (calls : ℕ) :
    getU8 (server.offerPacket calls) 16 = if calls = 0 then 0xC0 else 0x40 := by
  apply UInt8.toNat_inj.mp
  have hlength : 16 < (server.offerPacket calls).length := by
    rw [SdServer.offerPacket, messageOf_length]
    simp
  rw [getU8_toNat _ hlength, SdServer.offerPacket, messageOf, flags_sdMessage]
  split <;> rfl

theorem Numbered.flags {server : SdServer} {outcomes : List Bool} {process : SdProcess}
    (h : Numbered server outcomes process) {k : ℕ} {call : OfferCall}
    (hcall : process.calls[k]? = some call) :
    getU8 call.sent.packet 16 = if k = 0 then 0xC0 else 0x40 := by
  rw [h.sent_eq k call hcall, flags_offerPacket]

/-- Without the packet of the first call there is no announcement. -/
theorem announced_iff_of_later {sent : List SentTo}
    (h : ∀ packet ∈ sent.map SentTo.packet, getU8 packet 16 = 0x40) : Announced sent ↔ sent = [] := by
  cases sent with
  | nil => exact iff_of_true trivial rfl
  | cons first later =>
      refine iff_of_false (fun hannounced => ?_) (List.cons_ne_nil _ _)
      have hfirst := h first.packet (List.mem_cons_self)
      rw [hannounced.1] at hfirst
      exact absurd hfirst (by decide)

/-- The reboot is announced exactly when the first call gets its packet out, or no call does. -/
theorem reboot_announced_iff (serviceId instanceId : ℕ) (ip : DottedQuad) (port : ℕ)
    (multicast : DottedQuad) (sdPort : ℕ) {actions : List SdAction} {process : SdProcess}
    (hrun : exec step (boot (SdServer.init serviceId instanceId ip port multicast sdPort)) actions =
      some process) :
    Announced process.sent ↔
      (∀ raised ∈ sendOutcomes actions, raised = true) ∨ (sendOutcomes actions).head? = some false := by
  have hnumbered := numbered_run rfl rfl hrun
  rw [← hnumbered.raised_eq, SdProcess.sent]
  cases hcalls : process.calls with
  | nil => exact iff_of_true trivial (Or.inl (by simp))
  | cons call rest =>
      have hlater : ∀ packet ∈ ((rest.filter fun call => !call.raised).map OfferCall.sent).map
          SentTo.packet, getU8 packet 16 = 0x40 := by
        intro packet hpacket
        simp only [List.mem_map, List.mem_filter] at hpacket
        obtain ⟨sent, ⟨later, ⟨hmem, -⟩, rfl⟩, rfl⟩ := hpacket
        obtain ⟨k, hk⟩ := List.mem_iff_getElem?.mp hmem
        have hindex : process.calls[k + 1]? = some later := by
          rw [hcalls, List.getElem?_cons_succ, hk]
        exact hnumbered.flags hindex
      cases hraised : call.raised with
      | false =>
          rw [List.filter_cons_of_pos (by rw [hraised]; rfl), List.map_cons]
          refine iff_of_true ⟨?_, hlater⟩ (Or.inr ?_)
          · have hindex : process.calls[0]? = some call := by rw [hcalls, List.getElem?_cons_zero]
            exact hnumbered.flags hindex
          · rw [List.map_cons, hraised, List.head?_cons]
      | true =>
          rw [List.filter_cons_of_neg (by rw [hraised]; decide), announced_iff_of_later hlater,
            List.map_eq_nil_iff, List.filter_eq_nil_iff, List.map_cons, hraised, List.head?_cons]
          simp

/-- The first send of the loop fails and is made up for in the next period. -/
def retried : List SdAction := [.start, .loopCheck, .loopOffer true, .loopWake, .loopCheck, .loopOffer false]

theorem reboot_announced_retried :
    ∃ process, exec step (boot (SdServer.init 0x1234 0x5678 ⟨10, 0, 0, 1⟩ 30500)) retried =
        some process ∧ ¬ Announced process.sent := by
  refine ⟨_, rfl, fun hannounced => ?_⟩
  have hcondition := (@reboot_announced_iff 0x1234 0x5678 ⟨10, 0, 0, 1⟩ 30500 sdMulticast Mpu.sdPort
    retried _ rfl).mp hannounced
  revert hcondition
  decide

/-- The only packet sent after a failure carries no reboot flag. -/
theorem reboot_unannounced :
    ¬ ∀ (actions : List SdAction) (process : SdProcess),
      exec step (boot (SdServer.init 0x1234 0x5678 ⟨10, 0, 0, 1⟩ 30500)) actions = some process →
        Announced process.sent := by
  intro hall
  have hfirst := (hall [.offerOnce true, .offerOnce false] _ rfl).1
  revert hfirst
  decide +kernel

/-! ### The end of the loop -/

/-- The steps that the thread still takes when `_stop` is set, and the calls of `offer_once` among them. -/
def stepsLeft : LoopPhase → ℕ
  | .offer => 3
  | .wait => 2
  | .check => 1
  | .finished => 0

def offersLeft : LoopPhase → ℕ
  | .offer => 1
  | .wait | .check | .finished => 0

/-- The calls of `offer_once` that the thread has made. -/
def threadOffers (actions : List SdAction) : ℕ := (sendOutcomes (actions.filter SdAction.ofThread)).length

/-- Since `stop` was called: the thread has gone, or the owner waits for it and `_stop` is set. -/
inductive Ending (steps offers : ℕ) (process : SdProcess) : Prop where
  | gone (hthread : process.thread = none) (hjoining : process.joining = false)
      (hsteps : steps ≤ 3) (hoffers : offers ≤ 1)
  | waiting (phase : LoopPhase) (hthread : process.thread = some phase) (hjoining : process.joining = true)
      (hstop : process.stopEvent = true) (hsteps : steps + stepsLeft phase ≤ 3)
      (hoffers : offers + offersLeft phase ≤ 1)

theorem callOfferOnce_frame (process : SdProcess) (raised : Bool) :
    (process.callOfferOnce raised).1.thread = process.thread ∧
      (process.callOfferOnce raised).1.joining = process.joining ∧
      (process.callOfferOnce raised).1.stopEvent = process.stopEvent := by
  unfold callOfferOnce
  split <;> exact ⟨rfl, rfl, rfl⟩

/-- The thread waits for the next period, or an exception of the builder has ended it. -/
theorem loopOffer_frame (process : SdProcess) (raised : Bool) :
    ((process.loopOffer raised).thread = some .wait ∨ (process.loopOffer raised).thread = some .finished) ∧
      (process.loopOffer raised).joining = process.joining ∧
      (process.loopOffer raised).stopEvent = process.stopEvent := by
  obtain ⟨-, hjoining, hstop⟩ := callOfferOnce_frame process raised
  unfold loopOffer
  split
  next heq =>
    rw [heq] at hjoining hstop
    exact ⟨.inl rfl, hjoining, hstop⟩
  next heq =>
    rw [heq] at hjoining hstop
    exact ⟨.inl rfl, hjoining, hstop⟩
  next heq =>
    rw [heq] at hjoining hstop
    exact ⟨.inr rfl, hjoining, hstop⟩

theorem stop_ending {process next : SdProcess} (hstep : process.step .stop = some next) : Ending 0 0 next := by
  obtain ⟨hjoining, hnext⟩ := Option.ite_none_left_eq_some.mp hstep
  cases hnext
  have hreturned : process.joining = false := Bool.eq_false_iff.mpr hjoining
  unfold stop
  split
  next hthread => exact .gone hthread hreturned (Nat.zero_le 3) (Nat.zero_le 1)
  next => exact .gone rfl hreturned (Nat.zero_le 3) (Nat.zero_le 1)
  next phase _ hthread =>
    exact .waiting phase hthread rfl rfl (by cases phase <;> decide) (by cases phase <;> decide)

theorem Ending.step {steps offers : ℕ} {process next : SdProcess} {action : SdAction}
    (h : Ending steps offers process) (hstart : action ≠ .start) (hstep : process.step action = some next) :
    Ending (steps + [action].countP SdAction.ofThread) (offers + threadOffers [action]) next := by
  cases action with
  | start => exact absurd rfl hstart
  | offerOnce raised =>
      cases hstep
      obtain ⟨hthread', hjoining', hstop'⟩ := callOfferOnce_frame process raised
      cases h with
      | gone hthread hjoining hsteps hoffers =>
          exact .gone (hthread'.trans hthread) (hjoining'.trans hjoining) hsteps hoffers
      | waiting phase hthread hjoining hstop hsteps hoffers =>
          exact .waiting phase (hthread'.trans hthread) (hjoining'.trans hjoining) (hstop'.trans hstop) hsteps hoffers
  | stop =>
      obtain ⟨hreturned, hnext⟩ := Option.ite_none_left_eq_some.mp hstep
      cases hnext
      cases h with
      | gone hthread hjoining hsteps hoffers =>
          have hsame : process.stop = process := by
            unfold SdProcess.stop
            rw [hthread]
          rw [hsame]
          exact .gone hthread hjoining hsteps hoffers
      | waiting phase hthread hjoining hstop hsteps hoffers => exact absurd hjoining hreturned
  | joined =>
      obtain ⟨⟨hwaiting, hfinished⟩, hnext⟩ := Option.ite_none_right_eq_some.mp hstep
      cases hnext
      cases h with
      | gone hthread hjoining hsteps hoffers => exact .gone rfl rfl hsteps hoffers
      | waiting phase hthread hjoining hstop hsteps hoffers =>
          exact .gone rfl rfl ((Nat.le_add_right _ _).trans hsteps) ((Nat.le_add_right _ _).trans hoffers)
  | loopCheck =>
      obtain ⟨hcheck, hnext⟩ := Option.ite_none_right_eq_some.mp hstep
      cases hnext
      cases h with
      | gone hthread hjoining hsteps hoffers =>
          rw [hthread] at hcheck
          cases hcheck
      | waiting phase hthread hjoining hstop hsteps hoffers =>
          cases hthread.symm.trans hcheck
          rw [if_pos hstop]
          exact .waiting .finished rfl hjoining hstop hsteps hoffers
  | loopOffer raised =>
      obtain ⟨hoffer, hnext⟩ := Option.ite_none_right_eq_some.mp hstep
      cases hnext
      obtain ⟨hphase, hjoining', hstop'⟩ := loopOffer_frame process raised
      cases h with
      | gone hthread hjoining hsteps hoffers =>
          rw [hthread] at hoffer
          cases hoffer
      | waiting phase hthread hjoining hstop hsteps hoffers =>
          cases hthread.symm.trans hoffer
          have hsteps' : steps + 3 ≤ 3 := hsteps
          rcases hphase with hwait | hfinished
          · exact .waiting .wait hwait (hjoining'.trans hjoining) (hstop'.trans hstop) hsteps hoffers
          · refine .waiting .finished hfinished (hjoining'.trans hjoining) (hstop'.trans hstop) ?_ hoffers
            show steps + 1 ≤ 3
            omega
  | loopWake =>
      obtain ⟨hwait, hnext⟩ := Option.ite_none_right_eq_some.mp hstep
      cases hnext
      cases h with
      | gone hthread hjoining hsteps hoffers =>
          rw [hthread] at hwait
          cases hwait
      | waiting phase hthread hjoining hstop hsteps hoffers =>
          cases hthread.symm.trans hwait
          exact .waiting .check rfl hjoining hstop hsteps hoffers

theorem run_ending {process : SdProcess} {actions : List SdAction} {last : SdProcess} (h : Ending 0 0 process)
    (hrun : exec step process actions = some last) (hstart : .start ∉ actions) :
    Ending (actions.countP SdAction.ofThread) (threadOffers actions) last := by
  refine exec_induction process (fun actions last => .start ∉ actions →
    Ending (actions.countP SdAction.ofThread) (threadOffers actions) last) (fun _ => h) ?_ actions last hrun hstart
  intro actions mid action last _ hbefore hstep hstart
  have hending := (hbefore fun hmem => hstart (List.mem_append_left _ hmem)).step
    (fun haction => hstart (List.mem_append_right _ (List.mem_singleton.mpr haction.symm))) hstep
  rw [threadOffers, List.filter_append, sendOutcomes, List.filterMap_append, List.length_append, List.countP_append]
  exact hending

/-- Once `stop` has been called, and until the next `start`, the thread takes three more steps at most and
calls `offer_once` once more at most. While `stop` waits the thread or `join` can go on, and once it has
returned the thread does nothing. -/
theorem stop_ends_loop (server : SdServer) (before during : List SdAction) (process : SdProcess)
    (hrun : exec step (boot server) (before ++ .stop :: during) = some process) (hstart : .start ∉ during) :
    during.countP SdAction.ofThread ≤ 3 ∧ threadOffers during ≤ 1 ∧
      (process.joining = true →
        ∃ action, (action.ofThread = true ∨ action = .joined) ∧ (process.step action).isSome = true) ∧
      (process.joining = false → ∀ action, action.ofThread = true → process.step action = none) := by
  obtain ⟨called, mid, -, hstop, hduring⟩ := exec_split hrun
  have hending := run_ending (stop_ending hstop) hduring hstart
  cases hending with
  | gone hthread hjoining hsteps hoffers =>
      refine ⟨hsteps, hoffers, fun hwaits => ?_, fun _ action haction => ?_⟩
      · rw [hjoining] at hwaits
        cases hwaits
      · cases action with
        | loopCheck | loopOffer | loopWake => simp [step, hthread]
        | offerOnce | start | stop | joined => cases haction
  | waiting phase hthread hjoining hstop hsteps hoffers =>
      refine ⟨(Nat.le_add_right _ _).trans hsteps, (Nat.le_add_right _ _).trans hoffers, fun _ => ?_,
        fun hreturned => ?_⟩
      · cases phase with
        | check => exact ⟨.loopCheck, .inl rfl, by simp [step, hthread]⟩
        | offer => exact ⟨.loopOffer false, .inl rfl, by simp [step, hthread]⟩
        | wait => exact ⟨.loopWake, .inl rfl, by simp [step, hthread]⟩
        | finished => exact ⟨.joined, .inr rfl, by simp [step, hthread, hjoining]⟩
      · rw [hjoining] at hreturned
        cases hreturned

/-- `stop` comes between the look at `_stop` and the offer. -/
theorem stop_ends_loop_offer :
    ∃ process, exec step (boot (SdServer.init 0x1234 0x5678 ⟨10, 0, 0, 1⟩ 30500))
        ([.start, .loopCheck] ++ .stop :: [.loopOffer false, .loopWake, .loopCheck]) = some process ∧
      process.joining = true ∧
      ([.loopOffer false, .loopWake, .loopCheck].countP SdAction.ofThread ≤ 3 ∧
        threadOffers [.loopOffer false, .loopWake, .loopCheck] ≤ 1 ∧
        (process.joining = true →
          ∃ action, (action.ofThread = true ∨ action = .joined) ∧ (process.step action).isSome = true) ∧
        (process.joining = false → ∀ action, action.ofThread = true → process.step action = none)) := by
  have hreached : (exec step (boot (SdServer.init 0x1234 0x5678 ⟨10, 0, 0, 1⟩ 30500))
      ([.start, .loopCheck] ++ .stop :: [.loopOffer false, .loopWake, .loopCheck])).map SdProcess.joining =
        some true := by
    decide +kernel
  obtain ⟨process, hrun, hjoining⟩ := Option.map_eq_some_iff.mp hreached
  exact ⟨process, hrun, hjoining, stop_ends_loop _ [.start, .loopCheck] [.loopOffer false, .loopWake, .loopCheck]
    process hrun (by decide)⟩

end SdProcess

end SdvZone.Mpu
