import SdvZone.DrowsinessAlarm
import SdvZone.MpuProtocol
import SdvZone.SafeStateDeadline
import SdvZone.UdpNetwork

/-! The program that the Yocto image installs (`recipes-app/sdv-mpu/files/drowsiness.py`) and the MCU. It
has the camera loop of `ai/drowsiness.py`, a packet builder of its own, one thread and no heartbeats: what
keeps the MCU in NORMAL is the alarm. -/

namespace SdvZone.Yocto

open Wire Machine Mpu

/-! ### The program -/

def serviceId : ℕ := 0x1234
def eventId : ℕ := 0x8001

/-- `struct.pack('!B', value)`. -/
def structPackByte (value : ℕ) : Except PyError Bytes :=
  if value < 2 ^ 8 then .ok [UInt8.ofNat value] else .error .structError

/-- The packet that `someip_notify` builds, of which the length field counts the padding and a byte
more. -/
def someipNotify (level : ℕ) : Except PyError Bytes := do
  let header ← structPackHeader {
    serviceId := serviceId
    methodId := eventId
    length := 8 + 1 + 8
    clientId := 0x0001
    sessionId := 0x0001
    protocolVersion := 0x01
    interfaceVersion := 0x01
    messageType := 0x02
    returnCode := 0x00 }
  let payload ← structPackByte level
  return header ++ payload ++ List.replicate 7 0

/-- Where `main` stands. -/
inductive MainPc where
  | openCamera
  | read
  | faces (rest : List ℕ) (quit : Bool)
  | simulate
  | returned
  deriving DecidableEq, Repr

structure Process where
  main : MainPc
  camera : Bool
  counter : ℕ
  sent : List Bytes
  deriving DecidableEq, Repr

/-- A step of `main`; `raised` tells whether `sendto` raises an exception, which is logged. -/
inductive Action where
  | openCamera
  | read (frame : Option Frame)
  | face (raised : Bool)
  | frameEnd
  | simulate (level : ℕ) (raised : Bool)
  deriving DecidableEq, Repr

namespace Process

def boot (camera : Bool) : Process := { main := .openCamera, camera := camera, counter := 0, sent := [] }

/-- `someip_notify`. Only the exceptions of `sendto` are caught. -/
def notify (process : Process) (level : ℕ) (raised : Bool) : Process :=
  match someipNotify level with
  | .ok packet => if raised then process else { process with sent := process.sent ++ [packet] }
  | .error _ => { process with main := .returned }

/-- One face, as in `ai/drowsiness.py`. -/
def face (process : Process) (eyes : ℕ) (raised : Bool) : Process :=
  let (counter, level) := cameraFace process.counter eyes
  let process := { process with counter := counter }
  match level with
  | some level => process.notify level raised
  | none => process

def step (process : Process) : Action → Option Process
  | .openCamera =>
      if process.main = .openCamera then
        some { process with main := if process.camera then .read else .simulate }
      else none
  | .read frame =>
      if process.main = .read then
        match frame with
        | none => some { process with main := .returned }
        | some frame => some { process with main := .faces frame.faces frame.quit }
      else none
  | .face raised =>
      match process.main with
      | .faces (eyes :: rest) quit => some ({ process with main := .faces rest quit }.face eyes raised)
      | _ => none
  | .frameEnd =>
      match process.main with
      | .faces [] quit => some { process with main := if quit then .returned else .read }
      | _ => none
  | .simulate level raised =>
      if process.main = .simulate ∧ level ∈ [0, 85, 90] then
        if 0 < level then some (process.notify level raised) else some process
      else none

/-! ### What it has sent -/

/-- The faces of the frames that `cap.read` has brought, by the eyes found in each. -/
def facesRead (actions : List Action) : List ℕ :=
  actions.flatMap fun action =>
    match action with
    | .read (some frame) => frame.faces
    | _ => []

/-- The faces still to be looked at. -/
def ahead : MainPc → List ℕ
  | .faces rest _ => rest
  | .openCamera | .read | .simulate | .returned => []

/-- A packet of the camera loop. -/
def Alarm (packet : Bytes) : Prop := ∃ level, 80 ≤ level ∧ level ≤ 100 ∧ someipNotify level = .ok packet

/-- The counter has counted closed eyes, and nothing is sent before it has reached 15. -/
structure Watches (closed : ℕ) (process : Process) : Prop where
  camera : process.camera = true
  loop : process.main ≠ .simulate
  counted : process.counter + (ahead process.main).countP eyesClosed ≤ closed
  sent : ∀ packet ∈ process.sent, Alarm packet ∧ earConsecFrames ≤ closed

theorem boot_watches : Watches 0 (boot true) where
  camera := rfl
  loop := MainPc.noConfusion
  counted := Nat.le_refl 0
  sent := by
    intro packet hpacket
    cases hpacket

theorem Watches.mono {closed more : ℕ} {process : Process} (h : Watches closed process) (hle : closed ≤ more) :
    Watches more process where
  camera := h.camera
  loop := h.loop
  counted := h.counted.trans hle
  sent := fun packet hpacket => ⟨(h.sent packet hpacket).1, (h.sent packet hpacket).2.trans hle⟩

/-- Levels up to 100 fit into the payload. -/
theorem someipNotify_ok {level : ℕ} (h : level ≤ 100) : ∃ packet, someipNotify level = .ok packet := by
  have hfits : SomeipHeader.Fits ⟨serviceId, eventId, 8 + 1 + 8, 1, 1, 1, 1, 2, 0⟩ := by decide
  rw [someipNotify, structPackHeader, if_pos hfits, structPackByte, if_pos (by omega)]
  exact ⟨_, rfl⟩

theorem Watches.notify {closed level : ℕ} {process : Process} (h : Watches closed process)
    (hlevel : 80 ≤ level ∧ level ≤ 100) (hclosed : earConsecFrames ≤ closed) (raised : Bool) :
    Watches closed (process.notify level raised) := by
  obtain ⟨packet, hpacket⟩ := someipNotify_ok hlevel.2
  rw [Process.notify, hpacket]
  cases raised with
  | true => exact h
  | false =>
      refine ⟨h.camera, h.loop, h.counted, ?_⟩
      intro earlier hmem
      rcases List.mem_append.mp hmem with hbefore | hnew
      · exact h.sent earlier hbefore
      · rw [List.mem_singleton.mp hnew]
        exact ⟨⟨level, hlevel.1, hlevel.2, hpacket⟩, hclosed⟩

/-- A face with closed eyes is counted and no longer ahead; another one only takes from the counter. -/
theorem Watches.face {closed eyes : ℕ} {rest : List ℕ} {quit : Bool} {process : Process}
    (h : Watches closed process) (hpc : process.main = .faces (eyes :: rest) quit) (raised : Bool) :
    Watches closed ({ process with main := .faces rest quit }.face eyes raised) := by
  have hcounted := h.counted
  rw [hpc, ahead, List.countP_cons] at hcounted
  have hnext : (cameraFace process.counter eyes).1 + rest.countP eyesClosed ≤ closed := by
    rw [cameraFace]
    split
    next hclosed =>
      rw [if_pos hclosed] at hcounted
      show process.counter + 1 + rest.countP eyesClosed ≤ closed
      omega
    next =>
      show process.counter - 2 + rest.countP eyesClosed ≤ closed
      omega
  have hlater : Watches closed
      { process with main := .faces rest quit, counter := (cameraFace process.counter eyes).1 } :=
    ⟨h.camera, MainPc.noConfusion, hnext, h.sent⟩
  rw [Process.face]
  cases hface : (cameraFace process.counter eyes).2 with
  | none =>
      simp only [hface]
      exact hlater
  | some level =>
      simp only [hface]
      obtain ⟨hclosed, hcount, rfl⟩ := (cameraFace_level _ _ _).mp hface
      rw [if_pos hclosed] at hcounted
      exact hlater.notify (by omega) (show 15 ≤ closed by omega) raised

theorem step_watches {closed : ℕ} {process next : Process} {action : Action} (h : Watches closed process)
    (hstep : process.step action = some next) :
    Watches (closed + (facesRead [action]).countP eyesClosed) next := by
  cases action with
  | openCamera =>
      obtain ⟨hpc, hnext⟩ := Option.ite_none_right_eq_some.mp hstep
      cases hnext
      have hcounted := h.counted
      rw [hpc] at hcounted
      rw [h.camera, if_pos rfl]
      exact ⟨rfl, MainPc.noConfusion, hcounted, h.sent⟩
  | read frame =>
      obtain ⟨hpc, hnext⟩ := Option.ite_none_right_eq_some.mp hstep
      have hcounted := h.counted
      rw [hpc] at hcounted
      cases frame with
      | none =>
          cases hnext
          exact ⟨h.camera, MainPc.noConfusion, hcounted, h.sent⟩
      | some frame =>
          cases hnext
          have hmore := h.mono (Nat.le_add_right closed (frame.faces.countP eyesClosed))
          rw [facesRead, List.flatMap_singleton]
          exact ⟨h.camera, MainPc.noConfusion, Nat.add_le_add_right hcounted _, hmore.sent⟩
  | face raised =>
      rw [step] at hstep
      split at hstep
      next eyes rest quit hpc =>
        cases hstep
        exact h.face hpc raised
      next => cases hstep
  | frameEnd =>
      rw [step] at hstep
      split at hstep
      next quit hpc =>
        cases hstep
        have hcounted := h.counted
        rw [hpc] at hcounted
        cases quit <;> exact ⟨h.camera, MainPc.noConfusion, hcounted, h.sent⟩
      next => cases hstep
  | simulate level raised =>
      obtain ⟨⟨hpc, -⟩, -⟩ := Option.ite_none_right_eq_some.mp hstep
      exact absurd hpc h.loop

/-- Nothing is sent before 15 faces with closed eyes have been seen. -/
theorem run_watches {actions : List Action} {last : Process}
    (hrun : exec step (boot true) actions = some last) :
    Watches ((facesRead actions).countP eyesClosed) last := by
  refine exec_induction (boot true) (fun actions last =>
    Watches ((facesRead actions).countP eyesClosed) last) boot_watches ?_ actions last hrun
  intro actions mid action last _ hbefore hstep
  rw [facesRead, List.flatMap_append, List.countP_append]
  exact step_watches hbefore hstep

theorem notify_sent (process : Process) (level : ℕ) (raised : Bool) :
    process.sent ⊆ (process.notify level raised).sent := by
  rw [notify]
  split
  · split
    · exact List.Subset.refl _
    · exact List.subset_append_left _ _
  · exact List.Subset.refl _

/-- What is sent stays sent. -/
theorem sent_kept (process : Process) (action : Action) (next : Process)
    (hstep : process.step action = some next) : process.sent ⊆ next.sent := by
  cases action with
  | openCamera =>
      obtain ⟨-, hnext⟩ := Option.ite_none_right_eq_some.mp hstep
      cases hnext
      exact List.Subset.refl _
  | read frame =>
      obtain ⟨-, hnext⟩ := Option.ite_none_right_eq_some.mp hstep
      cases frame <;> cases hnext <;> exact List.Subset.refl _
  | face raised =>
      rw [step] at hstep
      split at hstep
      next eyes rest quit hpc =>
        cases hstep
        rw [face]
        cases (cameraFace process.counter eyes) with
        | mk counter level =>
            cases level with
            | none => exact List.Subset.refl _
            | some level =>
                exact notify_sent { process with main := .faces rest quit, counter := counter } level raised
      next => cases hstep
  | frameEnd =>
      rw [step] at hstep
      split at hstep
      next =>
        cases hstep
        exact List.Subset.refl _
      next => cases hstep
  | simulate level raised =>
      obtain ⟨-, hnext⟩ := Option.ite_none_right_eq_some.mp hstep
      split at hnext
      · cases hnext
        exact notify_sent process level raised
      · cases hnext
        exact List.Subset.refl _

end Process

/-! ### The MCU behind it -/

/-- The program and the MCU on a UDP network. -/
def udpStep : Process × Mcu.Firmware → Action ⊕ Mcu.FirmwareStep → Option (Process × Mcu.Firmware) :=
  Zone.overUdp Process.step Process.sent

/-- In NORMAL, 100 ms after the start or later, an alarm of the program has held off SAFE within the last
100 ms, and 15 faces with closed eyes have been seen: while the driver is awake the MCU is in SAFE. -/
theorem normal_needs_alarm (wdtReady : Bool) (steps : List (Action ⊕ Mcu.FirmwareStep)) (process : Process)
    (firmware : Mcu.Firmware)
    (hrun : exec udpStep (.boot true, .start wdtReady (.udp .static)) steps = some (process, firmware))
    (hnormal : firmware.board.safety.safetyIsSafeState = false) (hlate : 100 ≤ firmware.board.uptime) :
    earConsecFrames ≤ (Process.facesRead (lefts steps)).countP eyesClosed ∧
      ∃ time, ∃ packet ∈ process.sent, Process.Alarm packet ∧
        (time, some (Zone.receptionOf packet)) ∈ observe Mcu.Firmware.step Mcu.Firmware.kickActivity
          (.start wdtReady (.udp .static)) (rights steps) ∧
        time ≤ firmware.board.uptime ∧ firmware.board.uptime < time + 100 := by
  obtain ⟨hprogram, hmcu, -⟩ := Zone.overUdp_run Process.sent_kept hrun
  obtain ⟨time, reception, hentry, hpast, hrecent, packet, hpacket, -, rfl⟩ :=
    Mcu.Firmware.normal_activity (Zone.overUdp_delivers Process.sent_kept hrun) hmcu hnormal hlate
  obtain ⟨halarm, hclosed⟩ := (Process.run_watches hprogram).sent packet hpacket
  exact ⟨hclosed, time, packet, hpacket, halarm, hentry, hpast, hrecent⟩

/-- One frame of fifteen faces with closed eyes, and the alarm comes in after 70 ms. -/
def alarmRun (idle : ℕ) : List (Action ⊕ Mcu.FirmwareStep) :=
  [.inl .openCamera, .inl (.read (some ⟨List.replicate 15 0, false⟩))] ++
    List.replicate 15 (.inl (.face false)) ++ List.replicate idle (.inr .tick) ++
    (((someipNotify 80).toOption.toList.flatMap Mcu.Firmware.eventRun).map .inr) ++
    List.replicate idle (.inr .tick)

theorem normal_needs_alarm_notify :
    ∃ process firmware,
      exec udpStep (.boot true, .start true (.udp .static)) (alarmRun 70) = some (process, firmware) ∧
      earConsecFrames ≤ (Process.facesRead (lefts (alarmRun 70))).countP eyesClosed ∧
        ∃ time, ∃ packet ∈ process.sent, Process.Alarm packet ∧
          (time, some (Zone.receptionOf packet)) ∈ observe Mcu.Firmware.step Mcu.Firmware.kickActivity
            (.start true (.udp .static)) (rights (alarmRun 70)) ∧
          time ≤ firmware.board.uptime ∧ firmware.board.uptime < time + 100 := by
  have hreached : (exec udpStep (.boot true, .start true (.udp .static)) (alarmRun 70)).map (fun last =>
      (last.2.board.safety.safetyIsSafeState, last.2.board.uptime)) = some (false, 140) := by
    decide +kernel
  obtain ⟨⟨process, firmware⟩, hrun, hlast⟩ := Option.map_eq_some_iff.mp hreached
  obtain ⟨hnormal, huptime⟩ := Prod.mk.inj hlast
  have hlate : firmware.board.uptime = 140 := huptime
  exact ⟨process, firmware, hrun,
    normal_needs_alarm true (alarmRun 70) process firmware hrun hnormal (by omega)⟩

end SdvZone.Yocto
