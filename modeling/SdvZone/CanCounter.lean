import SdvZone.FirmwareRuns

/-! The counter of the CAN frames. `can_thread` and the callback of the safety timer share the static
`alive_counter`, and `alive_counter++` is a load and a store: the callback may come in between, or
behind them and before `can_send`. `RacingGateway` makes these steps of their own; it does what the
gateway does in one step exactly when the callback keeps out. -/

namespace SdvZone.Mcu

open Wire Machine

/-- A frame with the counter and the level it carries. -/
def canFrame (counter level : UInt8) : CanFrame := CanGateway.frame ⟨counter, []⟩ level

theorem frame_eq (gateway : CanGateway) (level : UInt8) :
    gateway.frame level = canFrame gateway.aliveCounter level := rfl

/-- The gateway after it has sent these frames one at a time, by their levels. -/
def CanGateway.replay (sent : List (CanFrame × Nat)) : CanGateway :=
  sent.foldl (fun gateway entry => gateway.canSendFrame (getU8 entry.1.data 3) entry.2) .static

theorem replay_snoc (sent : List (CanFrame × Nat)) (entry : CanFrame × Nat) :
    CanGateway.replay (sent ++ [entry]) =
      (CanGateway.replay sent).canSendFrame (getU8 entry.1.data 3) entry.2 := by
  rw [CanGateway.replay, List.foldl_append]
  rfl

theorem replay_length (sent : List (CanFrame × Nat)) :
    (CanGateway.replay sent).sent.length = sent.length := by
  induction sent using List.reverseRecOn with
  | nil => rfl
  | append_singleton sent entry ih =>
      rw [replay_snoc, CanGateway.canSendFrame, List.length_append, List.length_append, ih]
      rfl

/-- The counter has counted the frames. -/
theorem replay_counter (sent : List (CanFrame × Nat)) :
    (CanGateway.replay sent).aliveCounter = UInt8.ofNat sent.length := by
  induction sent using List.reverseRecOn with
  | nil => rfl
  | append_singleton sent entry ih =>
      rw [replay_snoc, CanGateway.canSendFrame, ih, List.length_append, List.length_singleton,
        UInt8.ofNat_add]
      rfl

/-- The frames carry the counters of their places. -/
def InOrder (sent : List (CanFrame × Nat)) : Prop := (CanGateway.replay sent).sent = sent

/-- One frame more. -/
theorem inOrder_snoc (sent : List (CanFrame × Nat)) (counter level : UInt8) (timeoutMs : Nat) :
    InOrder (sent ++ [(canFrame counter level, timeoutMs)]) ↔
      InOrder sent ∧ counter = (CanGateway.replay sent).aliveCounter := by
  have hlevel : getU8 (canFrame counter level).data 3 = level := rfl
  rw [InOrder, replay_snoc, CanGateway.canSendFrame, hlevel, frame_eq]
  constructor
  · intro h
    obtain ⟨hsent, hentry⟩ := List.append_inj h (replay_length sent)
    have hdata := congrArg (fun entry => getU8 entry.1.data 7) (List.singleton_inj.mp hentry)
    exact ⟨hsent, hdata.symm⟩
  · rintro ⟨hsent, rfl⟩
    exact congrArg (· ++ _) hsent

theorem inOrder_getElem? {sent : List (CanFrame × Nat)} (h : InOrder sent) {k : Nat}
    {entry : CanFrame × Nat} (hk : sent[k]? = some entry) :
    entry.1 = canFrame (UInt8.ofNat k) (getU8 entry.1.data 3) := by
  induction sent using List.reverseRecOn with
  | nil => cases hk
  | append_singleton sent last ih =>
      rw [InOrder, replay_snoc, CanGateway.canSendFrame] at h
      obtain ⟨hsent, hlast⟩ := List.append_inj h (replay_length sent)
      rcases Nat.lt_or_ge k sent.length with hlt | hge
      · rw [List.getElem?_append_left hlt] at hk
        exact ih hsent hk
      · rw [List.getElem?_append_right hge, List.getElem?_singleton] at hk
        split at hk
        next hzero =>
          cases hk
          have hcount := replay_counter sent
          have hframe := congrArg Prod.fst (List.singleton_inj.mp hlast)
          have hplace : k = sent.length := by omega
          rw [frame_eq, hcount, ← hplace] at hframe
          exact hframe.symm
        next => cases hk

/-! ### Frames sent one at a time -/

namespace Firmware

/-- The frames on the bus are what the gateway has sent, one at a time. -/
structure Counted (firmware : Firmware) : Prop where
  gateway : firmware.threads.gateway = .replay firmware.threads.gateway.sent
  frames : firmware.transmissions.map Transmission.frame = firmware.threads.gateway.sent.map Prod.fst

theorem canSendFrame_replay {gateway : CanGateway} (h : gateway = .replay gateway.sent) (level : UInt8)
    (timeoutMs : Nat) :
    gateway.canSendFrame level timeoutMs = .replay (gateway.canSendFrame level timeoutMs).sent := by
  have hlevel : getU8 (gateway.frame level).data 3 = level := rfl
  show _ = CanGateway.replay (gateway.sent ++ [(gateway.frame level, timeoutMs)])
  rw [replay_snoc, ← h, hlevel]

theorem Counted.send {firmware : Firmware} (h : Counted firmware) (sender : CanSender) (level : UInt8)
    (timeoutMs : Nat) {next : Firmware}
    (hgateway : next.threads.gateway = firmware.threads.gateway.canSendFrame level timeoutMs)
    (hsent : next.transmissions = firmware.canSend sender level) : Counted next := by
  refine ⟨?_, ?_⟩
  · rw [hgateway]
    exact canSendFrame_replay h.gateway level timeoutMs
  · rw [hgateway, hsent, canSend, List.map_append, h.frames, CanGateway.canSendFrame, List.map_append]
    rfl

theorem Counted.driverCall {firmware : Firmware} (h : Counted firmware) (call : DriverCall) :
    Counted (firmware.driverCall call) := by
  cases call with
  | canSendWarning => exact h.send .canSendWarning 0xFF 5 rfl rfl
  | wdtSetup | wdtFeed | timerStart | gpioPinToggle => exact h

theorem Counted.tick {firmware : Firmware} (h : Counted firmware) : Counted firmware.tick := by
  have hcalls : ∀ (calls : List (Nat × DriverCall)) (firmware : Firmware), Counted firmware →
      Counted (calls.foldl (fun firmware call => firmware.driverCall call.2) firmware) := by
    intro calls
    induction calls with
    | nil => exact fun _ hcounted => hcounted
    | cons call rest ih => exact fun firmware hcounted => ih _ (hcounted.driverCall call.2)
  apply hcalls
  exact ⟨h.gateway, h.frames⟩

theorem Counted.canStep {firmware : Firmware} (h : Counted firmware) : Counted firmware.canStep := by
  cases hpc : firmware.threads.can with
  | send level =>
      apply h.send .canThread (UInt8.ofNat level) 100
      · simp only [Firmware.canStep, Threads.canStep, hpc, CanGateway.canSendDrowsiness]
      · simp only [Firmware.canStep, hpc]
  | get | clear | sleep =>
      have hgateway : firmware.canStep.threads.gateway = firmware.threads.gateway := by
        simp only [Firmware.canStep, Threads.canStep, hpc]
      have hsent : firmware.canStep.transmissions = firmware.transmissions := by
        simp only [Firmware.canStep, hpc]
      refine ⟨?_, ?_⟩
      · rw [hgateway]
        exact h.gateway
      · rw [hgateway, hsent]
        exact h.frames

theorem someipStep_gateway {threads next : Threads} {uptime : Nat}
    (h : threads.someipStep uptime = some next) : next.gateway = threads.gateway := by
  unfold Threads.someipStep at h
  split at h <;> cases h <;> rfl

theorem effect_counted {firmware next : Firmware} {input : FirmwareStep} (h : Counted firmware)
    (heffect : Effect firmware input next) : Counted next := by
  cases heffect with
  | tick => exact h.tick
  | can => exact h.canStep
  | advance threads hthreads _ =>
      have hgateway := someipStep_gateway hthreads
      refine ⟨?_, ?_⟩
      · rw [hgateway]
        exact h.gateway
      · rw [hgateway]
        exact h.frames
  | wait | accept | kick | timer | recover => exact ⟨h.gateway, h.frames⟩

theorem run_counted {wdtReady : Bool} {transport : Transport} {steps : List FirmwareStep}
    {last : Firmware} (hrun : exec step (start wdtReady transport) steps = some last) : Counted last :=
  exec_induction (start wdtReady transport) (fun _ last => Counted last) ⟨rfl, rfl⟩
    (fun _ _ _ _ _ hcounted hstep => effect_counted hcounted (step_effect hstep)) steps last hrun

/-- As long as `can_send_frame` is not interrupted, the frames are numbered over both senders. -/
theorem transmissions_counted (wdtReady : Bool) (transport : Transport) (steps : List FirmwareStep)
    (last : Firmware) (hrun : exec step (start wdtReady transport) steps = some last) (k : Nat)
    (transmission : Transmission) (hk : last.transmissions[k]? = some transmission) :
    transmission.frame.id = 0x18FF01F4 ∧ transmission.frame.data =
      [0x55, 0xAA, 0x01, transmission.level, 0x00, 0x00,
        e2eCrc8 [0x55, 0xAA, 0x01, transmission.level, 0x00, 0x00], UInt8.ofNat k] := by
  have hcounted := run_counted hrun
  have hframe : (last.transmissions.map Transmission.frame)[k]? = some transmission.frame := by
    rw [List.getElem?_map, hk]
    rfl
  rw [hcounted.frames, List.getElem?_map] at hframe
  obtain ⟨entry, hentry, hsame⟩ := Option.map_eq_some_iff.mp hframe
  have horder : InOrder last.threads.gateway.sent := (congrArg CanGateway.sent hcounted.gateway).symm
  have hplace := inOrder_getElem? horder hentry
  rw [hsame] at hplace
  have hlevel : getU8 transmission.frame.data 3 = transmission.level := rfl
  rw [hplace, hlevel]
  exact ⟨rfl, rfl⟩

theorem transmissions_counted_notify :
    ∃ last transmission, exec step (start true (.udp .static)) (eventRun (eventDatagram 1 85)) = some last ∧
      last.transmissions[0]? = some transmission ∧
      transmission.frame.id = 0x18FF01F4 ∧ transmission.frame.data =
        [0x55, 0xAA, 0x01, transmission.level, 0x00, 0x00,
          e2eCrc8 [0x55, 0xAA, 0x01, transmission.level, 0x00, 0x00], UInt8.ofNat 0] :=
  ⟨_, _, rfl, rfl, transmissions_counted true (.udp .static) (eventRun (eventDatagram 1 85)) _ rfl 0 _ rfl⟩

end Firmware

/-! ### Frames sent under the callback -/

/-- Where `can_thread` stands in `can_send_frame`: it has read the counter, or has written it back. -/
inductive SendPc where
  | idle
  | loaded (level counter : UInt8)
  | stored (level counter : UInt8)
  deriving DecidableEq, Repr

structure RacingGateway where
  thread : SendPc
  gateway : CanGateway
  deriving DecidableEq, Repr

/-- The thread calls `can_send_drowsiness` and reads the counter, writes it back, or hands the frame
over; the callback of the timer calls `can_send_warning` and runs to its end. -/
inductive RacingStep where
  | load (level : UInt8)
  | store
  | send
  | warning
  deriving DecidableEq, Repr

namespace RacingGateway

def static : RacingGateway := { thread := .idle, gateway := .static }

def step (racing : RacingGateway) : RacingStep → Option RacingGateway
  | .load level =>
      match racing.thread with
      | .idle => some { racing with thread := .loaded level racing.gateway.aliveCounter }
      | _ => none
  | .store =>
      match racing.thread with
      | .loaded level counter =>
          some {
            thread := .stored level counter
            gateway := { racing.gateway with aliveCounter := counter + 1 } }
      | _ => none
  | .send =>
      match racing.thread with
      | .stored level counter =>
          some {
            thread := .idle
            gateway := { racing.gateway with
              sent := racing.gateway.sent ++ [(canFrame counter level, 100)] } }
      | _ => none
  | .warning => some { racing with gateway := racing.gateway.canSendWarning }

/-- The counter is written back as it was read, and the callback does not come between that and
`can_send`. -/
def Undisturbed (racing : RacingGateway) : RacingStep → Prop
  | .store => ∀ level counter, racing.thread = .loaded level counter → racing.gateway.aliveCounter = counter
  | .warning => ∀ level counter, racing.thread ≠ .stored level counter
  | _ => True

/-- The counter that the next frame should carry. -/
def expected (racing : RacingGateway) : UInt8 := (CanGateway.replay racing.gateway.sent).aliveCounter

/-- The gateway is where it would be without the race, the frame under way included. -/
def Synced (racing : RacingGateway) : Prop :=
  InOrder racing.gateway.sent ∧
    match racing.thread with
    | .idle => racing.gateway.aliveCounter = racing.expected
    | .loaded _ _ => racing.gateway.aliveCounter = racing.expected
    | .stored _ counter =>
        racing.gateway.aliveCounter = racing.expected + 1 ∧ counter = racing.expected

/-- A counter that the callback has left behind has been read in order. -/
def Fresh (racing : RacingGateway) : Prop :=
  ∀ level counter, racing.thread = .loaded level counter → InOrder racing.gateway.sent →
    racing.gateway.aliveCounter = racing.expected ∨ counter = racing.gateway.aliveCounter

theorem expected_snoc (sent : List (CanFrame × Nat)) (entry : CanFrame × Nat) :
    (CanGateway.replay (sent ++ [entry])).aliveCounter = (CanGateway.replay sent).aliveCounter + 1 := by
  rw [replay_snoc]
  rfl

/-- The callback's frame is in order if the counter is. -/
theorem inOrder_warning (gateway : CanGateway) : InOrder gateway.canSendWarning.sent ↔
    InOrder gateway.sent ∧ gateway.aliveCounter = (CanGateway.replay gateway.sent).aliveCounter :=
  inOrder_snoc gateway.sent gateway.aliveCounter 0xFF 5

theorem step_fresh {mid last : RacingGateway} {input : RacingStep} (h : Fresh mid)
    (hstep : mid.step input = some last) : Fresh last := by
  obtain ⟨thread, gateway⟩ := mid
  cases input with
  | warning =>
      cases hstep
      intro level counter hpc horder
      obtain ⟨-, hcounter⟩ := (inOrder_warning gateway).mp horder
      left
      show gateway.aliveCounter + 1 = (CanGateway.replay (gateway.sent ++ [_])).aliveCounter
      rw [expected_snoc, ← hcounter]
  | load level =>
      cases thread <;> cases hstep
      intro _ counter hpc _
      cases hpc
      exact .inr rfl
  | store | send =>
      cases thread <;> cases hstep
      intro level counter hpc
      cases hpc

theorem succ_ne_self (counter : UInt8) : counter ≠ counter + 1 := by
  intro h
  have hvalue := congrArg UInt8.toNat h
  rw [UInt8.toNat_add, show (1 : UInt8).toNat = 1 from rfl] at hvalue
  omega

/-- A step keeps the gateway in order exactly when it is undisturbed. -/
theorem step_synced {mid last : RacingGateway} {input : RacingStep} (hfresh : Fresh mid)
    (hstep : mid.step input = some last) : Synced last ↔ Synced mid ∧ Undisturbed mid input := by
  obtain ⟨thread, gateway⟩ := mid
  cases input with
  | load level =>
      cases thread <;> cases hstep
      exact (and_iff_left trivial).symm
  | store =>
      cases thread with
      | idle | stored => cases hstep
      | loaded level counter =>
          cases hstep
          constructor
          · rintro ⟨horder, -, hcounter⟩
            have hread : gateway.aliveCounter = counter := by
              rcases hfresh level counter rfl horder with hsame | hsame
              · exact hsame.trans hcounter.symm
              · exact hsame.symm
            refine ⟨⟨horder, hread.trans hcounter⟩, fun _ _ hpc => ?_⟩
            cases hpc
            exact hread
          · rintro ⟨⟨horder, hcounter⟩, hread⟩
            have hsame : counter = (CanGateway.replay gateway.sent).aliveCounter :=
              (hread level counter rfl).symm.trans hcounter
            exact ⟨horder, congrArg (· + 1) hsame, hsame⟩
  | send =>
      cases thread with
      | idle | loaded => cases hstep
      | stored level counter =>
          cases hstep
          have horder := inOrder_snoc gateway.sent counter level 100
          constructor
          · rintro ⟨hsent, hcounter⟩
            obtain ⟨hbefore, hplace⟩ := horder.mp hsent
            have hnext : gateway.aliveCounter = (CanGateway.replay (gateway.sent ++ [_])).aliveCounter :=
              hcounter
            rw [expected_snoc] at hnext
            exact ⟨⟨hbefore, hnext, hplace⟩, trivial⟩
          · rintro ⟨⟨hbefore, hcounter, hplace⟩, -⟩
            refine ⟨horder.mpr ⟨hbefore, hplace⟩, ?_⟩
            show gateway.aliveCounter = (CanGateway.replay (gateway.sent ++ [_])).aliveCounter
            rw [expected_snoc]
            exact hcounter
  | warning =>
      cases hstep
      have horder := inOrder_warning gateway
      have hexpected : (CanGateway.replay gateway.canSendWarning.sent).aliveCounter =
          (CanGateway.replay gateway.sent).aliveCounter + 1 := expected_snoc gateway.sent _
      cases thread with
      | idle =>
          constructor
          · rintro ⟨hsent, -⟩
            exact ⟨horder.mp hsent, fun _ _ hpc => by cases hpc⟩
          · rintro ⟨⟨hbefore, hcounter⟩, -⟩
            exact ⟨horder.mpr ⟨hbefore, hcounter⟩, (congrArg (· + 1) hcounter).trans hexpected.symm⟩
      | loaded level counter =>
          constructor
          · rintro ⟨hsent, -⟩
            exact ⟨horder.mp hsent, fun _ _ hpc => by cases hpc⟩
          · rintro ⟨⟨hbefore, hcounter⟩, -⟩
            exact ⟨horder.mpr ⟨hbefore, hcounter⟩, (congrArg (· + 1) hcounter).trans hexpected.symm⟩
      | stored level counter =>
          -- the callback has sent the counter behind the one the thread holds
          refine iff_of_false ?_ fun h => h.2 level counter rfl
          rintro ⟨hsent, hnext, -⟩
          obtain ⟨-, hcounter⟩ := horder.mp hsent
          have hlate : gateway.aliveCounter + 1 =
              (CanGateway.replay gateway.canSendWarning.sent).aliveCounter + 1 := hnext
          rw [hexpected, hcounter] at hlate
          exact succ_ne_self _ ((UInt8.add_left_inj 1).mp hlate)

theorem run_synced {steps : List RacingStep} {last : RacingGateway}
    (hrun : exec step static steps = some last) :
    Fresh last ∧ (Synced last ↔ Along step Undisturbed static steps) := by
  refine exec_induction static (fun steps last => Fresh last ∧
    (Synced last ↔ Along step Undisturbed static steps)) ?_ ?_ steps last hrun
  · refine ⟨fun level counter hpc => (by cases hpc), iff_of_true ⟨rfl, rfl⟩ (along_of_forall ?_)⟩
    intro input hinput
    cases hinput
  · rintro steps mid input last hmid ⟨hfresh, hsynced⟩ hstep
    refine ⟨step_fresh hfresh hstep, ?_⟩
    rw [step_synced hfresh hstep, hsynced]
    constructor
    · rintro ⟨halong, hlast⟩
      exact halong.snoc hmid hlast
    · intro halong
      exact ⟨halong.front, halong steps input mid (List.prefix_refl _) hmid⟩

/-- Between two frames of `can_thread` the gateway is what sending its frames one at a time would have
made of it, counter and frames, exactly when no callback has disturbed the thread. -/
theorem gateway_eq_replay_iff (steps : List RacingStep) (last : RacingGateway)
    (hrun : exec step static steps = some last) (hidle : last.thread = .idle) :
    last.gateway = .replay last.gateway.sent ↔ Along step Undisturbed static steps := by
  rw [← (run_synced hrun).2, Synced, hidle, InOrder, expected]
  constructor
  · intro h
    exact ⟨(congrArg CanGateway.sent h).symm, congrArg CanGateway.aliveCounter h⟩
  · rintro ⟨hsent, hcounter⟩
    rw [CanGateway.mk.injEq]
    exact ⟨hcounter, hsent.symm⟩

/-- The callback behind the store: its frame comes first, with the later counter. -/
theorem gateway_eq_replay_overtaken :
    ∃ last, exec step static [.load 85, .store, .warning, .send] = some last ∧
      (last.gateway = .replay last.gateway.sent ↔
        Along step Undisturbed static [.load 85, .store, .warning, .send]) ∧
      last.gateway.sent.map (fun entry => getU8 entry.1.data 7) = [1, 0] :=
  ⟨_, rfl, gateway_eq_replay_iff [.load 85, .store, .warning, .send] _ rfl rfl, rfl⟩

end RacingGateway

end SdvZone.Mcu
