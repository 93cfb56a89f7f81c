import Mathlib.Data.List.Range
import SdvZone.FirmwareRuns

/-! The pace of FindService. `someip_thread` looks at the clock once in each turn of its loop and once
more behind the call, and the clock is a counter of 32 bits; `Board.uptime` is the time it shows the
low bits of. -/

namespace SdvZone.Mcu.Firmware

open Machine Wire

/-- Each turn of the loop begins with a look at the clock. -/
def turns (firmware : Firmware) : FirmwareStep → List Nat
  | .findService _ _ => [firmware.board.uptime]
  | _ => []

/-- The turns that go on to call `someip_sd_send_find`. -/
def attempts (firmware : Firmware) : FirmwareStep → List Nat
  | .findService memory sendto =>
      if (firmware.findService memory sendto).loop = .lastFind then [firmware.board.uptime] else []
  | _ => []

/-- The difference of two readings is the time between them, modulo their range. -/
theorem elapsed_eq {stamp now : Nat} (h : stamp ≤ now) :
    (now % 2 ^ 32 + (2 ^ 32 - stamp % 2 ^ 32)) % 2 ^ 32 = (now - stamp) % 2 ^ 32 := by
  omega

/-- What a step does to the pace: nothing, the look at the clock, or the second one. -/
inductive Paces (firmware : Firmware) (input : FirmwareStep) (next : Firmware) : Prop where
  | other (hturns : firmware.turns input = []) (hattempts : firmware.attempts input = [])
      (hloop : next.loop = .lastFind ↔ firmware.loop = .lastFind)
      (hlastFind : next.lastFind = firmware.lastFind)
      (huptime : firmware.board.uptime ≤ next.board.uptime)
  | attempt (hturns : firmware.turns input = [firmware.board.uptime])
      (hattempts : firmware.attempts input = [firmware.board.uptime])
      (hloop : firmware.loop ≠ .lastFind) (hnext : next.loop = .lastFind)
      (hdue : 2000 ≤ (firmware.uptime32 + (2 ^ 32 - firmware.lastFind)) % 2 ^ 32)
      (huptime : next.board.uptime = firmware.board.uptime)
  | early (hturns : firmware.turns input = [firmware.board.uptime])
      (hattempts : firmware.attempts input = [])
      (hloop : firmware.loop ≠ .lastFind) (hnext : next.loop ≠ .lastFind)
      (hearly : (firmware.uptime32 + (2 ^ 32 - firmware.lastFind)) % 2 ^ 32 < 2000)
      (hlastFind : next.lastFind = firmware.lastFind)
      (huptime : next.board.uptime = firmware.board.uptime)
  | stamp (hturns : firmware.turns input = []) (hattempts : firmware.attempts input = [])
      (hloop : firmware.loop = .lastFind) (hnext : next.loop ≠ .lastFind)
      (hlastFind : next.lastFind = firmware.uptime32)
      (huptime : next.board.uptime = firmware.board.uptime)

theorem call_uptime (board : Board) (driverCall : DriverCall) :
    (board.call driverCall).uptime = board.uptime := (foldl_call_frame [driverCall] board).2

theorem dispatch_uptime {firmware next : Firmware} (h : firmware.dispatch = some next) :
    next.loop = firmware.loop ∧ next.lastFind = firmware.lastFind ∧
      next.board.uptime = firmware.board.uptime := by
  rw [dispatch.eq_def] at h
  split at h
  next =>
    cases h
    refine ⟨rfl, rfl, ?_⟩
    show (kickFeed firmware.board).uptime = _
    rw [kickFeed]
    split
    · exact call_uptime _ _
    · rfl
  next =>
    cases h
    exact ⟨rfl, rfl, call_uptime _ _⟩
  next =>
    obtain ⟨threads, -, rfl⟩ := Option.map_eq_some_iff.mp h
    exact ⟨rfl, rfl, rfl⟩
  next =>
    obtain ⟨threads, -, rfl⟩ := Option.map_eq_some_iff.mp h
    exact ⟨rfl, rfl, rfl⟩

theorem findService_ne_lastFind : LoopPc.findService ≠ .lastFind := by decide

theorem receive_ne_lastFind : LoopPc.receive ≠ .lastFind := by decide

theorem poll_ne_lastFind : LoopPc.poll ≠ .lastFind := by decide

theorem findService_cases (memory : Vector UInt8 64) (sendto : Outgoing → Int) (firmware : Firmware) :
    (2000 ≤ (firmware.uptime32 + (2 ^ 32 - firmware.lastFind)) % 2 ^ 32 ∧
      firmware.findService memory sendto =
        { firmware with loop := .lastFind, transport := sendFind memory sendto firmware.transport }) ∨
    ((firmware.uptime32 + (2 ^ 32 - firmware.lastFind)) % 2 ^ 32 < 2000 ∧
      firmware.findService memory sendto = { firmware with loop := .receive }) := by
  rcases le_or_gt 2000 ((firmware.uptime32 + (2 ^ 32 - firmware.lastFind)) % 2 ^ 32) with hdue | hearly
  · exact .inl ⟨hdue, if_pos hdue⟩
  · exact .inr ⟨hearly, if_neg hearly.not_ge⟩

theorem receiveUdp_frame (memory : Vector UInt8 64) (sendto : Outgoing → Int)
    (datagram : Option Bytes) (firmware : Firmware) (udp : SomeipUdp) :
    (firmware.receiveUdp memory sendto datagram udp).loop = .findService ∧
      (firmware.receiveUdp memory sendto datagram udp).lastFind = firmware.lastFind ∧
      (firmware.receiveUdp memory sendto datagram udp).board = firmware.board := by
  rw [receiveUdp]
  cases udp.someipUdpReceive memory sendto datagram with
  | mk after event => cases datagram <;> cases event <;> exact ⟨rfl, rfl, rfl⟩

theorem pollUart_frame (byte : Option UInt8) (firmware : Firmware) (rx : UartRx)
    (hloop : firmware.loop = .poll) :
    (firmware.pollUart byte rx).loop ≠ .lastFind ∧
      (firmware.pollUart byte rx).lastFind = firmware.lastFind ∧
      (firmware.pollUart byte rx).board = firmware.board := by
  cases byte with
  | none => exact ⟨receive_ne_lastFind, rfl, rfl⟩
  | some byte =>
      rw [pollUart]
      cases rx.receiveByte firmware.board.uptime byte with
      | mk after event =>
          cases event with
          | none => exact ⟨by rw [hloop]; exact poll_ne_lastFind, rfl, rfl⟩
          | some event => exact ⟨findService_ne_lastFind, rfl, rfl⟩

theorem step_paces {firmware next : Firmware} {input : FirmwareStep}
    (h : firmware.step input = some next) : Paces firmware input next := by
  cases input with
  | tick =>
      cases h
      obtain ⟨gateway, warnings, htick, -⟩ := firmware.tick_eq
      rw [htick]
      refine .other rfl rfl Iff.rfl rfl ?_
      show _ ≤ firmware.board.tick.uptime
      rw [tick_uptime]
      exact Nat.le_succ _
  | can =>
      cases h
      exact .other rfl rfl Iff.rfl rfl le_rfl
  | dispatch =>
      obtain ⟨hloop, hlastFind, huptime⟩ := dispatch_uptime h
      exact .other rfl rfl (by rw [hloop]) hlastFind huptime.ge
  | findService memory sendto =>
      obtain ⟨⟨-, hloop⟩, hnext⟩ := Option.ite_none_right_eq_some.mp h
      have hpc : firmware.loop ≠ .lastFind := by rw [hloop]; exact findService_ne_lastFind
      rcases findService_cases memory sendto firmware with ⟨hdue, hfind⟩ | ⟨hearly, hfind⟩
      · have hattempts : firmware.attempts (.findService memory sendto) = [firmware.board.uptime] := by
          rw [attempts, hfind, if_pos rfl]
        rw [hfind] at hnext
        cases hnext
        exact .attempt rfl hattempts hpc rfl hdue rfl
      · have hattempts : firmware.attempts (.findService memory sendto) = [] := by
          rw [attempts, hfind, if_neg receive_ne_lastFind]
        rw [hfind] at hnext
        cases hnext
        exact .early rfl hattempts hpc receive_ne_lastFind hearly rfl rfl
  | lastFind =>
      obtain ⟨⟨-, hloop⟩, hnext⟩ := Option.ite_none_right_eq_some.mp h
      cases hnext
      exact .stamp rfl rfl hloop receive_ne_lastFind rfl rfl
  | receiveUdp memory sendto datagram =>
      rw [step] at h
      split at h
      next udp htransport =>
        obtain ⟨⟨-, hloop⟩, hnext⟩ := Option.ite_none_right_eq_some.mp h
        cases hnext
        obtain ⟨hnext, hlastFind, hboard⟩ := receiveUdp_frame memory sendto datagram firmware udp
        exact .other rfl rfl (by rw [hnext, hloop]; exact iff_of_false findService_ne_lastFind receive_ne_lastFind)
          hlastFind (by rw [hboard])
      next => cases h
  | resyncUart =>
      rw [step] at h
      split at h
      next rx htransport =>
        obtain ⟨⟨-, hloop⟩, hnext⟩ := Option.ite_none_right_eq_some.mp h
        cases hnext
        exact .other rfl rfl (by rw [hloop]; exact iff_of_false poll_ne_lastFind receive_ne_lastFind) rfl le_rfl
      next => cases h
  | pollUart byte =>
      rw [step] at h
      split at h
      next rx htransport =>
        obtain ⟨⟨-, hloop⟩, hnext⟩ := Option.ite_none_right_eq_some.mp h
        cases hnext
        obtain ⟨hnext, hlastFind, hboard⟩ := pollUart_frame byte firmware rx hloop
        exact .other rfl rfl (iff_of_false hnext (by rw [hloop]; exact poll_ne_lastFind)) hlastFind (by rw [hboard])
      next => cases h

/-- Where the loop stands after the turns and attempts it has made, a turn taking at most `limit` ms.
`lastFind` shows the low bits of a moment at most `limit` after the last attempt, and the last turn was
less than 2000 ms after that moment, so that the next difference does not wrap. -/
structure Paced (limit : Nat) (turnTimes attemptTimes : List Nat) (firmware : Firmware) : Prop where
  apart : attemptTimes.IsChain fun attempt next => attempt + 2000 ≤ next
  close : attemptTimes.IsChain fun attempt next => next ≤ attempt + (2000 + 2 * limit)
  sending : firmware.loop = .lastFind → ∀ attempt ∈ attemptTimes.getLast?,
    attempt ∈ turnTimes.getLast? ∧ attempt ≤ firmware.board.uptime
  stamped : firmware.loop ≠ .lastFind → ∀ attempt ∈ attemptTimes.getLast?, ∃ stamp turn : Nat,
    turn ∈ turnTimes.getLast? ∧ firmware.lastFind = stamp % 2 ^ 32 ∧ attempt ≤ stamp ∧
      stamp ≤ attempt + limit ∧ stamp ≤ firmware.board.uptime ∧ turn < stamp + 2000

theorem paced_start (limit : Nat) (wdtReady : Bool) (transport : Transport) :
    Paced limit [] [] (start wdtReady transport) :=
  ⟨.nil, .nil, nofun, nofun⟩

/-- The turn under way is not too long either. -/
theorem uptime_le_turn {limit uptime turn : Nat} {turnTimes : List Nat}
    (hturns : (turnTimes ++ [uptime]).IsChain fun turn next => next ≤ turn + limit)
    (hturn : turn ∈ turnTimes.getLast?) : uptime ≤ turn + limit :=
  (List.isChain_append.mp hturns).2.2 turn hturn uptime rfl

/-- No attempt is overdue. -/
theorem Paced.uptime_le {limit attempt : Nat} {turnTimes attemptTimes : List Nat} {firmware : Firmware}
    (h : Paced limit turnTimes attemptTimes firmware)
    (hturns : (turnTimes ++ [firmware.board.uptime]).IsChain fun turn next => next ≤ turn + limit)
    (hattempt : attempt ∈ attemptTimes.getLast?) :
    firmware.board.uptime ≤ attempt + (2000 + 2 * limit) := by
  by_cases hloop : firmware.loop = .lastFind
  · have hturn := uptime_le_turn hturns (h.sending hloop attempt hattempt).1
    omega
  · obtain ⟨stamp, turn, hturn, -, -, hstamp, -, hlast⟩ := h.stamped hloop attempt hattempt
    have hnow := uptime_le_turn hturns hturn
    omega

/-- At a turn the difference of the readings is the time since the second look at the clock. -/
theorem Paced.elapsed {limit attempt : Nat} {turnTimes attemptTimes : List Nat} {firmware : Firmware}
    (hlimit : limit ≤ 1000) (h : Paced limit turnTimes attemptTimes firmware)
    (hloop : firmware.loop ≠ .lastFind)
    (hturns : (turnTimes ++ [firmware.board.uptime]).IsChain fun turn next => next ≤ turn + limit)
    (hattempt : attempt ∈ attemptTimes.getLast?) :
    ∃ stamp, firmware.lastFind = stamp % 2 ^ 32 ∧ attempt ≤ stamp ∧ stamp ≤ attempt + limit ∧
      stamp ≤ firmware.board.uptime ∧
      (firmware.uptime32 + (2 ^ 32 - firmware.lastFind)) % 2 ^ 32 = firmware.board.uptime - stamp := by
  obtain ⟨stamp, turn, hturn, hlastFind, hafter, hstamp, hpast, hlast⟩ := h.stamped hloop attempt hattempt
  have hnow := uptime_le_turn hturns hturn
  refine ⟨stamp, hlastFind, hafter, hstamp, hpast, ?_⟩
  rw [uptime32, hlastFind, elapsed_eq hpast]
  exact Nat.mod_eq_of_lt (by omega)

theorem step_paced {limit : Nat} (hlimit : limit ≤ 1000) {turnTimes attemptTimes : List Nat}
    {firmware next : Firmware} {input : FirmwareStep} (h : Paced limit turnTimes attemptTimes firmware)
    (hturns : (turnTimes ++ firmware.turns input ++ [next.board.uptime]).IsChain
      fun turn next => next ≤ turn + limit)
    (hstep : firmware.step input = some next) :
    Paced limit (turnTimes ++ firmware.turns input) (attemptTimes ++ firmware.attempts input) next := by
  cases step_paces hstep with
  | other hturn hattempt hloop hlastFind huptime =>
      rw [hturn, hattempt, List.append_nil, List.append_nil]
      refine ⟨h.apart, h.close, fun hnext attempt hlast => ?_, fun hnext attempt hlast => ?_⟩
      · obtain ⟨hin, hpast⟩ := h.sending (hloop.mp hnext) attempt hlast
        exact ⟨hin, hpast.trans huptime⟩
      · obtain ⟨stamp, turn, hin, hstamp, hafter, hsoon, hpast, hless⟩ :=
          h.stamped (mt hloop.mpr hnext) attempt hlast
        exact ⟨stamp, turn, hin, hlastFind.trans hstamp, hafter, hsoon, hpast.trans huptime, hless⟩
  | attempt hturn hattempt hloop hnext hdue huptime =>
      rw [hturn, huptime] at hturns
      have hnow := (List.isChain_append.mp hturns).1
      rw [hturn, hattempt]
      refine ⟨h.apart.append (.singleton _) ?_, h.close.append (.singleton _) ?_, fun _ attempt hlast => ?_,
        fun hother => absurd hnext hother⟩
      · rintro attempt hlast _ ⟨⟩
        obtain ⟨stamp, -, hafter, -, hpast, helapsed⟩ := h.elapsed hlimit hloop hnow hlast
        omega
      · rintro attempt hlast _ ⟨⟩
        exact h.uptime_le hnow hlast
      · rw [List.getLast?_concat] at hlast ⊢
        cases hlast
        exact ⟨rfl, huptime.ge⟩
  | early hturn hattempt hloop hnext hearly hlastFind huptime =>
      rw [hturn, huptime] at hturns
      have hnow := (List.isChain_append.mp hturns).1
      rw [hturn, hattempt, List.append_nil]
      refine ⟨h.apart, h.close, fun hother => absurd hother hnext, fun _ attempt hlast => ?_⟩
      obtain ⟨stamp, hstamp, hafter, hsoon, hpast, helapsed⟩ := h.elapsed hlimit hloop hnow hlast
      exact ⟨stamp, firmware.board.uptime, List.getLast?_concat, hlastFind.trans hstamp, hafter, hsoon,
        huptime ▸ hpast, by omega⟩
  | stamp hturn hattempt hloop hnext hlastFind huptime =>
      rw [hturn, List.append_nil, huptime] at hturns
      rw [hturn, hattempt, List.append_nil, List.append_nil]
      refine ⟨h.apart, h.close, fun hother => absurd hother hnext, fun _ attempt hlast => ?_⟩
      obtain ⟨hin, hpast⟩ := h.sending hloop attempt hlast
      exact ⟨firmware.board.uptime, attempt, hin, hlastFind, hpast, uptime_le_turn hturns hin, huptime.ge,
        by omega⟩

/-- The turns were not too long before the step either. -/
theorem turns_before_step {limit : Nat} {turnTimes : List Nat} {firmware next : Firmware}
    {input : FirmwareStep}
    (hturns : (turnTimes ++ firmware.turns input ++ [next.board.uptime]).IsChain
      fun turn next => next ≤ turn + limit)
    (hstep : firmware.step input = some next) :
    (turnTimes ++ [firmware.board.uptime]).IsChain fun turn next => next ≤ turn + limit := by
  have hfront := (List.isChain_append.mp hturns).1
  cases step_paces hstep with
  | attempt hturn _ _ _ _ _ => rwa [hturn] at hfront
  | early hturn _ _ _ _ _ _ => rwa [hturn] at hfront
  | other hturn _ _ _ huptime =>
      rw [hturn, List.append_nil] at hturns hfront
      refine hfront.append (.singleton _) ?_
      rintro turn hlast _ ⟨⟩
      exact huptime.trans (uptime_le_turn hturns hlast)
  | stamp hturn _ _ _ _ huptime =>
      rwa [hturn, List.append_nil, huptime] at hturns

/-- A run whose turns are not too long ends in `Paced`. -/
theorem exec_paced {limit : Nat} (hlimit : limit ≤ 1000) {wdtReady : Bool} {transport : Transport}
    {steps : List FirmwareStep} {last : Firmware}
    (hrun : exec step (start wdtReady transport) steps = some last)
    (hturns : (observe step turns (start wdtReady transport) steps ++ [last.board.uptime]).IsChain
      fun turn next => next ≤ turn + limit) :
    Paced limit (observe step turns (start wdtReady transport) steps)
      (observe step attempts (start wdtReady transport) steps) last := by
  refine exec_induction (start wdtReady transport)
    (fun steps last =>
      (observe step turns (start wdtReady transport) steps ++ [last.board.uptime]).IsChain
        (fun turn next => next ≤ turn + limit) →
      Paced limit (observe step turns (start wdtReady transport) steps)
        (observe step attempts (start wdtReady transport) steps) last)
    (fun _ => paced_start limit wdtReady transport) ?_ steps last hrun hturns
  intro steps mid input last hmid ih hlast hturns
  rw [observe_snoc turns hmid] at hturns ⊢
  rw [observe_snoc attempts hmid]
  exact step_paced hlimit (ih (turns_before_step hturns hlast)) hturns hlast

/-! ### A run at an even pace -/

/-- `someip_thread` is about to look at the clock. -/
structure AtTurn (uptime lastFind : Nat) (firmware : Firmware) : Prop where
  receive : firmware.threads.someip = .receive
  loop : firmware.loop = .findService
  transport : ∃ udp, firmware.transport = .udp udp
  uptime : firmware.board.uptime = uptime
  lastFind : firmware.lastFind = lastFind

/-- A piece of a run that leads from one turn to another. -/
def Leads (steps : List FirmwareStep) (turnTimes attemptTimes : List Nat)
    (uptime lastFind uptimeAfter lastFindAfter : Nat) : Prop :=
  ∀ firmware, AtTurn uptime lastFind firmware → ∃ next, exec step firmware steps = some next ∧
    AtTurn uptimeAfter lastFindAfter next ∧ observe step turns firmware steps = turnTimes ∧
    observe step attempts firmware steps = attemptTimes

theorem Leads.append {front back : List FirmwareStep} {turnTimes attemptTimes moreTurns moreAttempts : List Nat}
    {uptime lastFind uptimeMid lastFindMid uptimeAfter lastFindAfter : Nat}
    (hfront : Leads front turnTimes attemptTimes uptime lastFind uptimeMid lastFindMid)
    (hback : Leads back moreTurns moreAttempts uptimeMid lastFindMid uptimeAfter lastFindAfter) :
    Leads (front ++ back) (turnTimes ++ moreTurns) (attemptTimes ++ moreAttempts) uptime lastFind
      uptimeAfter lastFindAfter := by
  intro firmware h
  obtain ⟨mid, hmid, hatMid, hturns, hattempts⟩ := hfront firmware h
  obtain ⟨next, hnext, hatNext, hmoreTurns, hmoreAttempts⟩ := hback mid hatMid
  refine ⟨next, ?_, hatNext, ?_, ?_⟩
  · rw [exec_append, hmid, Option.bind_some, hnext]
  · rw [observe_append turns hmid, hturns, hmoreTurns]
  · rw [observe_append attempts hmid, hattempts, hmoreAttempts]

theorem tick_leads (uptime lastFind : Nat) : Leads [.tick] [] [] uptime lastFind (uptime + 1) lastFind := by
  intro firmware h
  obtain ⟨gateway, warnings, htick, -⟩ := firmware.tick_eq
  refine ⟨firmware.tick, rfl, ?_, rfl, rfl⟩
  rw [htick]
  refine ⟨h.receive, h.loop, h.transport, ?_, h.lastFind⟩
  show firmware.board.tick.uptime = _
  rw [tick_uptime, h.uptime]

theorem ticks_leads (count uptime lastFind : Nat) :
    Leads (List.replicate count .tick) [] [] uptime lastFind (uptime + count) lastFind := by
  induction count with
  | zero => exact fun firmware h => ⟨firmware, rfl, h, rfl, rfl⟩
  | succ count ih =>
      rw [List.replicate_succ']
      exact ih.append (tick_leads (uptime + count) lastFind)

variable (memory : Vector UInt8 64) (sendto : Outgoing → Int)

/-- Nothing has come in. -/
theorem receive_leads {uptime lastFind : Nat} (firmware : Firmware)
    (hreceive : firmware.threads.someip = .receive)
    (hloop : firmware.loop = .receive) (htransport : ∃ udp, firmware.transport = .udp udp)
    (huptime : firmware.board.uptime = uptime) (hlastFind : firmware.lastFind = lastFind) :
    ∃ next, firmware.step (.receiveUdp memory sendto none) = some next ∧ AtTurn uptime lastFind next := by
  obtain ⟨udp, hudp⟩ := htransport
  refine ⟨{ firmware with loop := .findService, transport := .udp (udp.someipUdpReceive memory sendto none).1 },
    ?_, hreceive, rfl, ⟨_, rfl⟩, huptime, hlastFind⟩
  simp only [step, hudp]
  exact if_pos ⟨hreceive, hloop⟩

theorem early_leads {uptime lastFind : Nat} (hearly : (uptime % 2 ^ 32 + (2 ^ 32 - lastFind)) % 2 ^ 32 < 2000) :
    Leads [.findService memory sendto, .receiveUdp memory sendto none] [uptime] [] uptime lastFind
      uptime lastFind := by
  intro firmware h
  have hfind : firmware.findService memory sendto = { firmware with loop := .receive } := by
    refine if_neg (Nat.not_le.mpr ?_)
    rwa [uptime32, h.uptime, h.lastFind]
  have hstep : firmware.step (.findService memory sendto) = some { firmware with loop := .receive } := by
    rw [step, if_pos ⟨h.receive, h.loop⟩, hfind]
  obtain ⟨next, hnext, hturn⟩ :=
    receive_leads memory sendto { firmware with loop := .receive } h.receive rfl h.transport h.uptime h.lastFind
  refine ⟨next, ?_, hturn, ?_, ?_⟩
  · rw [exec_cons hstep, exec_cons hnext, exec_nil]
  · rw [observe_cons turns hstep, observe_cons turns hnext, turns, h.uptime]
    rfl
  · rw [observe_cons attempts hstep, observe_cons attempts hnext, attempts, hfind]
    rfl

theorem due_leads {uptime lastFind : Nat} (hdue : 2000 ≤ (uptime % 2 ^ 32 + (2 ^ 32 - lastFind)) % 2 ^ 32) :
    Leads [.findService memory sendto, .lastFind, .receiveUdp memory sendto none] [uptime] [uptime]
      uptime lastFind uptime (uptime % 2 ^ 32) := by
  intro firmware h
  obtain ⟨udp, hudp⟩ := h.transport
  have hfind : firmware.findService memory sendto = { firmware with
      loop := .lastFind, transport := .udp (udp.someipSdSendFind memory sendto).2 } := by
    have hnow : 2000 ≤ (firmware.uptime32 + (2 ^ 32 - firmware.lastFind)) % 2 ^ 32 := by
      rwa [uptime32, h.uptime, h.lastFind]
    rw [findService, if_pos hnow, hudp]
    rfl
  have hstep : firmware.step (.findService memory sendto) = some { firmware with
      loop := .lastFind, transport := .udp (udp.someipSdSendFind memory sendto).2 } := by
    rw [step, if_pos ⟨h.receive, h.loop⟩, hfind]
  have hstamp : step { firmware with
        loop := .lastFind, transport := .udp (udp.someipSdSendFind memory sendto).2 } .lastFind =
      some { firmware with
        loop := .receive, transport := .udp (udp.someipSdSendFind memory sendto).2,
        lastFind := uptime % 2 ^ 32 } := by
    rw [step, if_pos ⟨h.receive, rfl⟩, uptime32, h.uptime]
  obtain ⟨next, hnext, hturn⟩ := receive_leads memory sendto
    { firmware with
      loop := .receive, transport := .udp (udp.someipSdSendFind memory sendto).2,
      lastFind := uptime % 2 ^ 32 }
    h.receive rfl ⟨_, rfl⟩ h.uptime rfl
  refine ⟨next, ?_, hturn, ?_, ?_⟩
  · rw [exec_cons hstep, exec_cons hstamp, exec_cons hnext, exec_nil]
  · rw [observe_cons turns hstep, observe_cons turns hstamp, observe_cons turns hnext, turns, h.uptime]
    rfl
  · rw [observe_cons attempts hstep, observe_cons attempts hstamp, observe_cons attempts hnext, attempts, hfind,
      if_pos rfl, h.uptime]
    rfl

/-- Two seconds of the loop, with one turn in the middle and the one that is due at the end. -/
def pace : List FirmwareStep :=
  List.replicate 1000 FirmwareStep.tick ++ [.findService memory sendto, .receiveUdp memory sendto none] ++
    List.replicate 1000 FirmwareStep.tick ++
    [.findService memory sendto, .lastFind, .receiveUdp memory sendto none]

theorem pace_leads (uptime : Nat) :
    Leads (pace memory sendto) [uptime + 1000, uptime + 2000] [uptime + 2000] uptime (uptime % 2 ^ 32)
      (uptime + 2000) ((uptime + 2000) % 2 ^ 32) := by
  have hearly := elapsed_eq (Nat.le_add_right uptime 1000)
  have hdue := elapsed_eq (Nat.le_add_right uptime 2000)
  rw [Nat.add_sub_cancel_left] at hearly hdue
  exact (((ticks_leads 1000 uptime _).append (early_leads memory sendto (by rw [hearly]; decide))).append
    (ticks_leads 1000 (uptime + 1000) _)).append (due_leads memory sendto (by rw [hdue]; decide))

/-- `count` paces from the start of the firmware on. -/
theorem paces_lead (count : Nat) :
    Leads (List.replicate count (pace memory sendto)).flatten
      ((List.range (2 * count)).map fun index => 1000 * index + 1000)
      ((List.range count).map fun index => 2000 * index + 2000) 0 0 (2000 * count) (2000 * count % 2 ^ 32) := by
  induction count with
  | zero => exact fun firmware h => ⟨firmware, rfl, h, rfl, rfl⟩
  | succ count ih =>
      have hturns : (List.range (2 * (count + 1))).map (fun index => 1000 * index + 1000) =
          (List.range (2 * count)).map (fun index => 1000 * index + 1000) ++
            [2000 * count + 1000, 2000 * count + 2000] := by
        rw [show 2 * (count + 1) = 2 * count + 1 + 1 by omega, List.range_succ, List.range_succ,
          List.map_append, List.map_append, List.append_assoc]
        congr 1
        simp only [List.map_cons, List.map_nil, List.cons_append, List.nil_append, List.cons.injEq, and_true]
        omega
      rw [List.replicate_succ', List.flatten_concat, hturns, List.range_succ, List.map_append, Nat.mul_succ]
      exact ih.append (pace_leads memory sendto (2000 * count))

theorem even_turns (count : Nat) :
    ((List.range (2 * (count + 1))).map (fun index => 1000 * index + 1000) ++ [2000 * (count + 1)]).IsChain
      fun turn next => next ≤ turn + 1000 := by
  refine List.IsChain.append ?_ (.singleton _) ?_
  · rw [List.isChain_map, List.isChain_range]
    intro index _
    omega
  · rw [show 2 * (count + 1) = 2 * count + 1 + 1 by omega, List.range_succ, List.map_append]
    rintro turn hturn _ ⟨⟩
    rw [List.map_singleton, List.getLast?_concat] at hturn
    cases hturn
    omega

/-- While no turn of the loop takes longer than `limit` ms, the attempts are 2000 to 2000 + 2 `limit` ms
apart, and none is overdue, however often the 32 bits of the clock have wrapped. -/
theorem find_service_pacing (wdtReady : Bool) (udp : SomeipUdp) (limit : Nat) (hlimit : limit ≤ 1000)
    (steps : List FirmwareStep) (last : Firmware)
    (hrun : exec step (start wdtReady (.udp udp)) steps = some last)
    (hturns : (observe step turns (start wdtReady (.udp udp)) steps ++ [last.board.uptime]).IsChain
      fun turn next => next ≤ turn + limit) :
    (observe step attempts (start wdtReady (.udp udp)) steps).IsChain
      (fun attempt next => attempt + 2000 ≤ next) ∧
    (observe step attempts (start wdtReady (.udp udp)) steps ++ [last.board.uptime]).IsChain
      (fun attempt next => next ≤ attempt + (2000 + 2 * limit)) := by
  have h := exec_paced hlimit hrun hturns
  refine ⟨h.apart, h.close.append (.singleton _) ?_⟩
  rintro attempt hlast _ ⟨⟩
  exact h.uptime_le hturns hlast

/-- The paces of 49.7 days and a little more: the last attempts lie behind the wrap of the clock. -/
theorem find_service_pacing_wrap :
    ∃ last, exec step (start true (.udp .static))
        (List.replicate 2147484 (pace (Vector.replicate 64 0) fun packet => packet.bytes.length)).flatten =
      some last ∧ 2 ^ 32 ≤ last.board.uptime ∧
      (observe step attempts (start true (.udp .static))
        (List.replicate 2147484 (pace (Vector.replicate 64 0) fun packet => packet.bytes.length)).flatten).IsChain
        (fun attempt next => attempt + 2000 ≤ next) ∧
      (observe step attempts (start true (.udp .static))
          (List.replicate 2147484 (pace (Vector.replicate 64 0) fun packet => packet.bytes.length)).flatten ++
        [last.board.uptime]).IsChain (fun attempt next => next ≤ attempt + (2000 + 2 * 1000)) := by
  obtain ⟨last, hrun, hlast, hturns, -⟩ :=
    paces_lead (Vector.replicate 64 0) (fun packet => packet.bytes.length) 2147484
      (start true (.udp .static)) ⟨rfl, rfl, ⟨_, rfl⟩, rfl, rfl⟩
  have heven := even_turns 2147483
  rw [← hturns, ← hlast.uptime] at heven
  refine ⟨last, hrun, ?_, find_service_pacing true .static 1000 le_rfl _ last hrun heven⟩
  rw [hlast.uptime]
  decide

end SdvZone.Mcu.Firmware
