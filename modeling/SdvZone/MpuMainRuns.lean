import SdvZone.DrowsinessAlarm
import SdvZone.MpuMain
import SdvZone.SdServerRuns

/-! What the process of `ai/drowsiness.py` sends over whole runs. Its threads share nothing but the
transport: the heartbeats count from 0 modulo 256 whatever becomes of them, and the levels are those
of the camera loop up to the first one whose `send` raises. -/

namespace SdvZone.Mpu

open Wire Machine

namespace SdProcess

/-! ### What has been sent stays sent -/

theorem callOfferOnce_sent (sd : SdProcess) (raised : Bool) :
    sd.sent <+: (sd.callOfferOnce raised).1.sent := by
  unfold callOfferOnce
  split
  next packet server _ =>
    unfold sent
    rw [List.filter_append, List.map_append]
    exact List.prefix_append _ _
  next error _ => exact List.prefix_refl _

theorem loopOffer_sent (sd : SdProcess) (raised : Bool) : sd.sent <+: (sd.loopOffer raised).sent := by
  have hcall := callOfferOnce_sent sd raised
  unfold loopOffer
  split
  next heq =>
    rw [heq] at hcall
    exact hcall
  next heq =>
    rw [heq] at hcall
    exact hcall
  next heq =>
    rw [heq] at hcall
    exact hcall

theorem step_sent {sd next : SdProcess} {action : SdAction} (h : sd.step action = some next) :
    sd.sent <+: next.sent := by
  rcases step_cases h with ⟨raised, -, rfl | rfl⟩ | ⟨-, -, hcalls⟩
  · exact callOfferOnce_sent sd raised
  · exact loopOffer_sent sd raised
  · have hsame : next.sent = sd.sent := by
      unfold sent
      rw [hcalls]
    exact hsame ▸ List.prefix_refl _

end SdProcess

namespace MpuProcess

/-- What a step does. -/
inductive Moves (process : MpuProcess) : MpuAction → MpuProcess → Prop where
  | startSd (hpc : process.main = .startSd) :
      Moves process .startSd
        { process with main := .startHeartbeat, sd := process.sd.map SdProcess.start }
  | startHeartbeat (hpc : process.main = .startHeartbeat) :
      Moves process .startHeartbeat { process with main := .openCamera, heartbeat := some 0 }
  | openCamera (hpc : process.main = .openCamera) :
      Moves process .openCamera { process with main := if process.camera then .read else .simulate }
  | readFails (hpc : process.main = .read) : Moves process (.read none) { process with main := .returned }
  | read (frame : Frame) (hpc : process.main = .read) :
      Moves process (.read (some frame)) { process with main := .faces frame.faces frame.quit }
  | face (eyes : Nat) (rest : List Nat) (quit : Bool) (outcome : SendOutcome)
      (hpc : process.main = .faces (eyes :: rest) quit) :
      Moves process (.face outcome) ({ process with main := .faces rest quit }.face eyes outcome)
  | frameEnd (quit : Bool) (hpc : process.main = .faces [] quit) :
      Moves process .frameEnd { process with main := if quit then .returned else .read }
  | simulate (level : Nat) (outcome : SendOutcome) (hpc : process.main = .simulate)
      (hlevel : level ∈ [0, 85, 90]) :
      Moves process (.simulate level outcome)
        (if 0 < level then process.sendNotify level outcome else process)
  | heartbeat (counter : Nat) (outcome : SendOutcome) (hcounter : process.heartbeat = some counter) :
      Moves process (.heartbeat outcome) (process.sendHeartbeat counter outcome)
  | sd (sd next : SdProcess) (action : SdAction) (hsd : process.sd = some sd)
      (hstep : sd.step action = some next) :
      Moves process (.sd action) { process with sd := some next }
  | exit : Moves process .exit { process with main := .exited }

theorem step_moves {process next : MpuProcess} {action : MpuAction}
    (h : process.step action = some next) : Moves process action next := by
  cases action with
  | startSd =>
      obtain ⟨hpc, hnext⟩ := Option.ite_none_right_eq_some.mp h
      cases hnext
      exact .startSd hpc
  | startHeartbeat =>
      obtain ⟨hpc, hnext⟩ := Option.ite_none_right_eq_some.mp h
      cases hnext
      exact .startHeartbeat hpc
  | openCamera =>
      obtain ⟨hpc, hnext⟩ := Option.ite_none_right_eq_some.mp h
      cases hnext
      exact .openCamera hpc
  | read frame =>
      obtain ⟨hpc, hnext⟩ := Option.ite_none_right_eq_some.mp h
      cases frame with
      | none =>
          cases hnext
          exact .readFails hpc
      | some frame =>
          cases hnext
          exact .read frame hpc
  | face outcome =>
      rw [step] at h
      split at h
      next eyes rest quit hpc =>
        cases h
        exact .face eyes rest quit outcome hpc
      next => cases h
  | frameEnd =>
      rw [step] at h
      split at h
      next quit hpc =>
        cases h
        exact .frameEnd quit hpc
      next => cases h
  | simulate level outcome =>
      obtain ⟨⟨hpc, hlevel⟩, hnext⟩ := Option.ite_none_right_eq_some.mp h
      have hmoves := @Moves.simulate process level outcome hpc hlevel
      by_cases hpositive : 0 < level
      · rw [if_pos hpositive] at hnext hmoves
        cases hnext
        exact hmoves
      · rw [if_neg hpositive] at hnext hmoves
        cases hnext
        exact hmoves
  | heartbeat outcome =>
      rw [step] at h
      split at h
      next counter hcounter =>
        obtain ⟨-, hnext⟩ := Option.ite_none_right_eq_some.mp h
        cases hnext
        exact .heartbeat counter outcome hcounter
      next => cases h
  | sd action =>
      rw [step] at h
      split at h
      next sd hsd =>
        obtain ⟨-, hnext⟩ := Option.ite_none_right_eq_some.mp h
        obtain ⟨after, hstep, rfl⟩ := Option.map_eq_some_iff.mp hnext
        exact .sd sd after action hsd hstep
      next => cases h
  | exit =>
      cases h
      exact .exit

/-! ### One call of `send` -/

theorem notifyLevels_append (front back : List SendCall) :
    notifyLevels (front ++ back) = notifyLevels front ++ notifyLevels back := List.filterMap_append

theorem heartbeatCounters_append (front back : List SendCall) :
    heartbeatCounters (front ++ back) = heartbeatCounters front ++ heartbeatCounters back :=
  List.filterMap_append

theorem notifyLevels_notify (process : MpuProcess) (level : Nat) (outcome : SendOutcome) :
    notifyLevels (process.send (.notify level) outcome) = notifyLevels process.sends ++ [level] :=
  notifyLevels_append _ _

theorem notifyLevels_heartbeat (process : MpuProcess) (counter : Nat) (outcome : SendOutcome) :
    notifyLevels (process.send (.heartbeat counter) outcome) = notifyLevels process.sends :=
  (notifyLevels_append _ _).trans (List.append_nil _)

theorem heartbeatCounters_notify (process : MpuProcess) (level : Nat) (outcome : SendOutcome) :
    heartbeatCounters (process.send (.notify level) outcome) = heartbeatCounters process.sends :=
  (heartbeatCounters_append _ _).trans (List.append_nil _)

theorem heartbeatCounters_heartbeat (process : MpuProcess) (counter : Nat) (outcome : SendOutcome) :
    heartbeatCounters (process.send (.heartbeat counter) outcome) =
      heartbeatCounters process.sends ++ [counter] :=
  heartbeatCounters_append _ _

/-- A face sends nothing, or the level that `cameraFace` gives. -/
theorem face_cases (process : MpuProcess) (eyes : Nat) (outcome : SendOutcome) :
    ((cameraFace process.counter eyes).2 = none ∧
      process.face eyes outcome = { process with counter := (cameraFace process.counter eyes).1 }) ∨
    ∃ level, (cameraFace process.counter eyes).2 = some level ∧
      process.face eyes outcome =
        { process with counter := (cameraFace process.counter eyes).1 }.sendNotify level outcome := by
  rw [face]
  cases cameraFace process.counter eyes with
  | mk counter level =>
      cases level with
      | none => exact .inl ⟨rfl, rfl⟩
      | some level => exact .inr ⟨level, rfl, rfl⟩

/-! ### Heartbeats -/

/-- The heartbeats count up from 0, modulo 256. -/
structure Beats (process : MpuProcess) : Prop where
  counted : heartbeatCounters process.sends =
    (List.range (heartbeatCounters process.sends).length).map (· % 256)
  next : ∀ counter, process.heartbeat = some counter →
    counter = (heartbeatCounters process.sends).length % 256
  early : process.main = .startSd ∨ process.main = .startHeartbeat → process.heartbeat = none
  silent : process.heartbeat = none → heartbeatCounters process.sends = []

theorem boot_beats (dest : Option DottedQuad) (camera : Bool) : Beats (boot dest camera) where
  counted := rfl
  next := by
    intro counter h
    cases h
  early _ := rfl
  silent _ := rfl

/-- Steps of the other threads, and of `main` behind the start of the thread. -/
theorem Beats.frame {process next : MpuProcess} (h : Beats process)
    (hcounters : heartbeatCounters next.sends = heartbeatCounters process.sends)
    (hheartbeat : next.heartbeat = process.heartbeat)
    (hearly : next.main = .startSd ∨ next.main = .startHeartbeat →
      process.main = .startSd ∨ process.main = .startHeartbeat) : Beats next where
  counted := by
    rw [hcounters]
    exact h.counted
  next := by
    rw [hcounters, hheartbeat]
    exact h.next
  early := by
    rw [hheartbeat]
    exact fun hpc => h.early (hearly hpc)
  silent := by
    rw [hcounters, hheartbeat]
    exact h.silent

theorem sendNotify_frame (process : MpuProcess) (level : Nat) (outcome : SendOutcome) :
    heartbeatCounters (process.sendNotify level outcome).sends = heartbeatCounters process.sends ∧
      (process.sendNotify level outcome).heartbeat = process.heartbeat ∧
      ((process.sendNotify level outcome).main = .returned ∨
        (process.sendNotify level outcome).main = process.main) := by
  refine ⟨heartbeatCounters_notify process level outcome, rfl, ?_⟩
  rw [sendNotify]
  cases outcome.raised with
  | true => exact .inl rfl
  | false => exact .inr rfl

theorem face_frame (process : MpuProcess) (eyes : Nat) (outcome : SendOutcome) :
    heartbeatCounters (process.face eyes outcome).sends = heartbeatCounters process.sends ∧
      (process.face eyes outcome).heartbeat = process.heartbeat ∧
      ((process.face eyes outcome).main = .returned ∨ (process.face eyes outcome).main = process.main) := by
  rcases face_cases process eyes outcome with ⟨-, hface⟩ | ⟨level, -, hface⟩
  · rw [hface]
    exact ⟨rfl, rfl, .inr rfl⟩
  · rw [hface]
    exact sendNotify_frame _ level outcome

/-- Behind the start `main` does not come back to it. -/
theorem not_early {main before after : MainPc} (hmain : main = before ∨ main = after)
    (hbefore : before ≠ .startSd ∧ before ≠ .startHeartbeat)
    (hafter : after ≠ .startSd ∧ after ≠ .startHeartbeat) :
    ¬(main = .startSd ∨ main = .startHeartbeat) := by
  rintro (rfl | rfl)
  · rcases hmain with hsame | hsame
    · exact hbefore.1 hsame.symm
    · exact hafter.1 hsame.symm
  · rcases hmain with hsame | hsame
    · exact hbefore.2 hsame.symm
    · exact hafter.2 hsame.symm

theorem moves_beats {process next : MpuProcess} {action : MpuAction} (h : Beats process)
    (hmoves : Moves process action next) : Beats next := by
  cases hmoves with
  | startSd hpc => exact h.frame rfl rfl fun _ => .inl hpc
  | startHeartbeat hpc =>
      have hsilent := h.silent (h.early (.inr hpc))
      refine ⟨h.counted, fun counter hcounter => ?_, fun hearly => ?_, fun hnone => ?_⟩
      · cases hcounter
        show 0 = (heartbeatCounters process.sends).length % 256
        rw [hsilent]
        rfl
      · rcases hearly with hearly | hearly <;> cases hearly
      · cases hnone
  | openCamera hpc =>
      refine h.frame rfl rfl fun hearly => ?_
      dsimp only at hearly
      split at hearly <;> rcases hearly with hearly | hearly <;> cases hearly
  | readFails hpc => exact h.frame rfl rfl fun hearly => by rcases hearly with hearly | hearly <;> cases hearly
  | read frame hpc =>
      exact h.frame rfl rfl fun hearly => by rcases hearly with hearly | hearly <;> cases hearly
  | face eyes rest quit outcome hpc =>
      obtain ⟨hcounters, hheartbeat, hmain⟩ :=
        face_frame { process with main := .faces rest quit } eyes outcome
      exact h.frame hcounters hheartbeat fun hearly =>
        absurd hearly (not_early hmain ⟨MainPc.noConfusion, MainPc.noConfusion⟩
          ⟨MainPc.noConfusion, MainPc.noConfusion⟩)
  | frameEnd quit hpc =>
      refine h.frame rfl rfl fun hearly => ?_
      dsimp only at hearly
      split at hearly <;> rcases hearly with hearly | hearly <;> cases hearly
  | simulate level outcome hpc hlevel =>
      split
      next =>
        obtain ⟨hcounters, hheartbeat, hmain⟩ := sendNotify_frame process level outcome
        rw [hpc] at hmain
        exact h.frame hcounters hheartbeat fun hearly =>
          absurd hearly (not_early hmain ⟨MainPc.noConfusion, MainPc.noConfusion⟩
            ⟨MainPc.noConfusion, MainPc.noConfusion⟩)
      next => exact h
  | heartbeat counter outcome hcounter =>
      have hnow := h.next counter hcounter
      have hlength : (heartbeatCounters process.sends ++ [counter]).length =
          (heartbeatCounters process.sends).length + 1 := by
        rw [List.length_append, List.length_singleton]
      have hsends : heartbeatCounters (process.sendHeartbeat counter outcome).sends =
          heartbeatCounters process.sends ++ [counter] := heartbeatCounters_heartbeat _ _ _
      refine ⟨?_, fun after hafter => ?_, fun hearly => ?_, fun hnone => ?_⟩
      · rw [hsends, hlength, List.range_succ, List.map_append, ← h.counted, List.map_singleton, ← hnow]
      · cases hafter
        rw [hsends, hlength, hnow, show (0xFF : ℕ) = 2 ^ 8 - 1 from rfl, Nat.and_two_pow_sub_one_eq_mod]
        omega
      · rw [h.early hearly] at hcounter
        cases hcounter
      · cases hnone
  | sd sd after action hsd hstep => exact h.frame rfl rfl id
  | exit => exact h.frame rfl rfl fun hearly => by rcases hearly with hearly | hearly <;> cases hearly

theorem run_beats {dest : Option DottedQuad} {camera : Bool} {actions : List MpuAction} {last : MpuProcess}
    (hrun : exec step (boot dest camera) actions = some last) : Beats last :=
  exec_induction (boot dest camera) (fun _ last => Beats last) (boot_beats dest camera)
    (fun _ _ _ _ _ hbeats hstep => moves_beats hbeats (step_moves hstep)) actions last hrun

/-! ### The camera loop -/

/-- What `cap.read` has brought. -/
def framesRead (actions : List MpuAction) : List (Option Frame) :=
  actions.filterMap fun action =>
    match action with
    | .read frame => some frame
    | _ => none

theorem framesRead_snoc (actions : List MpuAction) (action : MpuAction) :
    framesRead (actions ++ [action]) = framesRead actions ++ framesRead [action] := List.filterMap_append

/-- No Notify has raised an exception. -/
def NotifiesSent (sends : List SendCall) : Prop :=
  ∀ call ∈ sends, ∀ level, call.packet.event = .notify level → call.outcome.raised = false

/-- The levels sent are those of `cameraLoop`, of which the rest lies ahead; all of them are sent when
`main` returns without an exception. -/
def FollowsAt (reads : List (Option Frame)) (levels : List Nat) (sent : Prop) (counter : Nat) : MainPc → Prop
  | .startSd | .startHeartbeat | .openCamera => reads = [] ∧ levels = [] ∧ counter = 0
  | .read => ∀ later,
      (cameraLoop 0 (reads ++ later)).flatten = levels ++ (cameraLoop counter later).flatten
  | .faces rest quit => ∀ later, (cameraLoop 0 (reads ++ later)).flatten = levels ++
      ((react cameraFace counter rest).2 ++
        if quit then [] else (cameraLoop (react cameraFace counter rest).1 later).flatten)
  | .simulate => False
  | .returned => ∃ unsent, (cameraLoop 0 reads).flatten = levels ++ unsent ∧ (sent → unsent = [])
  | .exited => levels <+: (cameraLoop 0 reads).flatten

def Follows (reads : List (Option Frame)) (process : MpuProcess) : Prop :=
  FollowsAt reads (notifyLevels process.sends) (NotifiesSent process.sends) process.counter process.main

theorem FollowsAt.front {reads : List (Option Frame)} {levels : List Nat} {sent : Prop} {counter : Nat}
    {pc : MainPc} (h : FollowsAt reads levels sent counter pc) :
    levels <+: (cameraLoop 0 reads).flatten := by
  have hnow : ∀ {ahead : List (Option Frame) → List Nat},
      (∀ later, (cameraLoop 0 (reads ++ later)).flatten = levels ++ ahead later) →
        levels <+: (cameraLoop 0 reads).flatten := by
    intro ahead hahead
    have hend := hahead []
    rw [List.append_nil] at hend
    exact ⟨_, hend.symm⟩
  cases pc with
  | startSd | startHeartbeat | openCamera =>
      rw [h.2.1]
      exact List.nil_prefix
  | read => exact hnow h
  | faces rest quit => exact hnow h
  | simulate => exact h.elim
  | returned =>
      obtain ⟨unsent, hahead, -⟩ := h
      exact ⟨unsent, hahead.symm⟩
  | exited => exact h

theorem FollowsAt.mono {reads : List (Option Frame)} {levels : List Nat} {sent stronger : Prop}
    {counter : Nat} {pc : MainPc} (h : FollowsAt reads levels sent counter pc) (hsent : stronger → sent) :
    FollowsAt reads levels stronger counter pc := by
  cases pc with
  | returned =>
      obtain ⟨unsent, hahead, hall⟩ := h
      exact ⟨unsent, hahead, fun hstronger => hall (hsent hstronger)⟩
  | startSd | startHeartbeat | openCamera | read | faces | simulate | exited => exact h

/-- A level that was due is sent: the loop goes on, or an exception has ended it. -/
theorem follows_sendNotify {reads : List (Option Frame)} {process : MpuProcess} {level : Nat}
    {rest : List Nat} {quit : Bool} (outcome : SendOutcome) (hpc : process.main = .faces rest quit)
    (hahead : ∀ later, (cameraLoop 0 (reads ++ later)).flatten = notifyLevels process.sends ++
      (level :: ((react cameraFace process.counter rest).2 ++
        if quit then [] else (cameraLoop (react cameraFace process.counter rest).1 later).flatten))) :
    Follows reads (process.sendNotify level outcome) := by
  have hlevels : notifyLevels (process.sendNotify level outcome).sends =
      notifyLevels process.sends ++ [level] := notifyLevels_notify process level outcome
  rw [Follows, hlevels]
  cases hraised : outcome.raised with
  | false =>
      have hmain : (process.sendNotify level outcome).main = .faces rest quit := by
        rw [sendNotify, hraised]
        exact hpc
      rw [hmain]
      intro later
      rw [List.append_assoc]
      exact hahead later
  | true =>
      have hmain : (process.sendNotify level outcome).main = .returned := by
        rw [sendNotify, hraised]
        rfl
      have hend := hahead []
      rw [List.append_nil] at hend
      rw [hmain]
      refine ⟨_, by rw [hend, List.append_assoc]; rfl, fun hsent => ?_⟩
      -- this very call has raised
      have hcall := hsent _ (List.mem_append_right _ List.mem_cons_self) level rfl
      rw [hraised] at hcall
      cases hcall

theorem moves_follows {reads : List (Option Frame)} {process next : MpuProcess} {action : MpuAction}
    (hcamera : process.camera = true) (h : Follows reads process) (hmoves : Moves process action next) :
    Follows (reads ++ framesRead [action]) next := by
  cases hmoves with
  | startSd hpc =>
      rw [Follows, hpc] at h
      show FollowsAt (reads ++ []) _ _ _ .startHeartbeat
      rw [List.append_nil]
      exact h
  | startHeartbeat hpc =>
      rw [Follows, hpc] at h
      show FollowsAt (reads ++ []) _ _ _ .openCamera
      rw [List.append_nil]
      exact h
  | openCamera hpc =>
      rw [Follows, hpc] at h
      obtain ⟨rfl, hlevels, hcounter⟩ := h
      rw [Follows, hcamera]
      intro later
      show (cameraLoop 0 later).flatten =
        notifyLevels process.sends ++ (cameraLoop process.counter later).flatten
      rw [hlevels, hcounter, List.nil_append]
  | readFails hpc =>
      rw [Follows, hpc] at h
      refine ⟨[], ?_, fun _ => rfl⟩
      rw [show framesRead [.read none] = [none] from rfl, h [none]]
      rfl
  | read frame hpc =>
      rw [Follows, hpc] at h
      intro later
      rw [show framesRead [.read (some frame)] = [some frame] from rfl, List.append_assoc,
        List.singleton_append, h (some frame :: later), cameraLoop]
      rw [List.flatten_cons, apply_ite List.flatten]
      rfl
  | face eyes rest quit outcome hpc =>
      rw [Follows, hpc] at h
      rw [show framesRead [.face outcome] = [] from rfl, List.append_nil]
      rcases face_cases { process with main := .faces rest quit } eyes outcome with
        ⟨hnone, hface⟩ | ⟨level, hlevel, hface⟩
      · rw [hface]
        intro later
        have hahead := h later
        rw [react_cons, show (cameraFace process.counter eyes).2 = none from hnone] at hahead
        exact hahead
      · rw [hface]
        refine follows_sendNotify outcome rfl fun later => ?_
        have hahead := h later
        rw [react_cons, show (cameraFace process.counter eyes).2 = some level from hlevel] at hahead
        exact hahead
  | frameEnd quit hpc =>
      rw [Follows, hpc] at h
      rw [show framesRead [.frameEnd] = [] from rfl, List.append_nil]
      cases quit with
      | true =>
          have hend := h []
          rw [List.append_nil] at hend
          exact ⟨[], hend, fun _ => rfl⟩
      | false => exact h
  | simulate level outcome hpc hlevel =>
      rw [Follows, hpc] at h
      exact h.elim
  | heartbeat counter outcome hcounter =>
      rw [show framesRead [.heartbeat outcome] = [] from rfl, List.append_nil, Follows, sendHeartbeat,
        notifyLevels_heartbeat]
      exact h.mono fun hsent call hcall => hsent call (List.mem_append_left _ hcall)
  | sd sd after action hsd hstep =>
      rw [show framesRead [.sd action] = [] from rfl, List.append_nil]
      exact h
  | exit =>
      rw [show framesRead [.exit] = [] from rfl, List.append_nil]
      exact h.front

theorem moves_camera {process next : MpuProcess} {action : MpuAction}
    (h : Moves process action next) : next.camera = process.camera := by
  cases h with
  | face eyes rest quit outcome hpc =>
      rcases face_cases { process with main := .faces rest quit } eyes outcome with
        ⟨-, hface⟩ | ⟨level, -, hface⟩
      · rw [hface]
      · rw [hface]
        rfl
  | simulate level outcome hpc hlevel => split <;> rfl
  | startSd | startHeartbeat | openCamera | readFails | read | frameEnd | heartbeat | sd | exit => rfl

theorem run_follows {dest : Option DottedQuad} {actions : List MpuAction} {last : MpuProcess}
    (hrun : exec step (boot dest true) actions = some last) : Follows (framesRead actions) last := by
  refine (exec_induction (boot dest true) (fun actions last =>
    last.camera = true ∧ Follows (framesRead actions) last) ⟨rfl, rfl, rfl, rfl⟩ ?_ actions last hrun).2
  rintro actions mid action last - ⟨hcamera, hfollows⟩ hstep
  have hmoves := step_moves hstep
  rw [framesRead_snoc]
  exact ⟨(moves_camera hmoves).trans hcamera, moves_follows hcamera hfollows hmoves⟩

/-- Whatever the threads do in between and whichever `send` raises, the levels sent are a beginning of
those of the camera loop, and all of them when the main thread stands in front of the camera or has
returned and no Notify has raised. The heartbeats count from 0 modulo 256 in any case. -/
theorem camera_sends (dest : Option DottedQuad) (actions : List MpuAction) (last : MpuProcess)
    (hrun : exec step (boot dest true) actions = some last) :
    notifyLevels last.sends <+: (cameraLoop 0 (framesRead actions)).flatten ∧
      (last.main = .read ∨ last.main = .returned → NotifiesSent last.sends →
        notifyLevels last.sends = (cameraLoop 0 (framesRead actions)).flatten) ∧
      heartbeatCounters last.sends =
        (List.range (heartbeatCounters last.sends).length).map (· % 256) := by
  have hfollows := run_follows hrun
  refine ⟨hfollows.front, fun hpc hsent => ?_, (run_beats hrun).counted⟩
  rcases hpc with hpc | hpc
  · rw [Follows, hpc] at hfollows
    have hend := hfollows []
    rw [List.append_nil] at hend
    exact (List.append_nil _).symm.trans hend.symm
  · rw [Follows, hpc] at hfollows
    obtain ⟨unsent, hahead, hall⟩ := hfollows
    rw [hahead, hall hsent, List.append_nil]

def taken : SendOutcome := ⟨24, false⟩

/-- A frame of fifteen faces with closed eyes; the first heartbeat raises an exception. -/
def alarmRun : List MpuAction :=
  [.startSd, .startHeartbeat, .heartbeat ⟨0, true⟩, .openCamera, .read (some ⟨List.replicate 15 0, true⟩)] ++
    List.replicate 15 (.face taken) ++ [.frameEnd, .heartbeat taken]

theorem camera_sends_alarm :
    ∃ last, exec step (boot none true) alarmRun = some last ∧ notifyLevels last.sends = [80] ∧
      notifyLevels last.sends <+: (cameraLoop 0 (framesRead alarmRun)).flatten ∧
      (last.main = .read ∨ last.main = .returned → NotifiesSent last.sends →
        notifyLevels last.sends = (cameraLoop 0 (framesRead alarmRun)).flatten) ∧
      heartbeatCounters last.sends =
        (List.range (heartbeatCounters last.sends).length).map (· % 256) :=
  ⟨_, rfl, rfl, camera_sends none alarmRun _ rfl⟩

/-! ### Levels -/

/-- Every level sent is an alarm. -/
def Alarms (process : MpuProcess) : Prop :=
  ∀ level ∈ notifyLevels process.sends, 80 ≤ level ∧ level ≤ 100

theorem Alarms.sendNotify {process : MpuProcess} {level : Nat} (h : Alarms process)
    (hlevel : 80 ≤ level ∧ level ≤ 100) (outcome : SendOutcome) :
    Alarms (process.sendNotify level outcome) := by
  intro sent hsent
  have hsends : notifyLevels (process.sendNotify level outcome).sends =
      notifyLevels process.sends ++ [level] := notifyLevels_notify process level outcome
  rw [hsends, List.mem_append, List.mem_singleton] at hsent
  rcases hsent with hbefore | rfl
  · exact h sent hbefore
  · exact hlevel

theorem moves_alarms {process next : MpuProcess} {action : MpuAction} (h : Alarms process)
    (hmoves : Moves process action next) : Alarms next := by
  cases hmoves with
  | face eyes rest quit outcome hpc =>
      rcases face_cases { process with main := .faces rest quit } eyes outcome with
        ⟨-, hface⟩ | ⟨level, hlevel, hface⟩
      · rw [hface]
        exact h
      · rw [hface]
        obtain ⟨-, hcount, rfl⟩ := (cameraFace_level _ _ _).mp hlevel
        exact @Alarms.sendNotify { process with main := .faces rest quit, counter := _ } _ h (by omega) outcome
  | simulate level outcome hpc hlevel =>
      split
      next hpositive =>
        refine h.sendNotify ?_ outcome
        simp only [List.mem_cons, List.not_mem_nil, or_false] at hlevel
        omega
      next => exact h
  | heartbeat counter outcome hcounter =>
      intro level hlevel
      rw [sendHeartbeat, notifyLevels_heartbeat] at hlevel
      exact h level hlevel
  | startSd | startHeartbeat | openCamera | readFails | read | frameEnd | sd | exit => exact h

theorem run_alarms {dest : Option DottedQuad} {camera : Bool} {actions : List MpuAction} {last : MpuProcess}
    (hrun : exec step (boot dest camera) actions = some last) : Alarms last := by
  refine exec_induction (boot dest camera) (fun _ last => Alarms last) ?_
    (fun _ _ _ _ _ halarms hstep => moves_alarms halarms (step_moves hstep)) actions last hrun
  intro level hlevel
  cases hlevel

/-- Behind every level sent lie 15 frames with closed eyes, when all frames are steady. -/
theorem notify_needs_closed {dest : Option DottedQuad} {actions : List MpuAction} {last : MpuProcess}
    (hrun : exec step (boot dest true) actions = some last)
    (hsteady : ∀ frame, some frame ∈ framesRead actions → Steady frame.faces) {level : Nat}
    (hlevel : level ∈ notifyLevels last.sends) :
    earConsecFrames ≤ (framesRead actions).countP hasClosed := by
  have hsent := (run_follows hrun).front.subset hlevel
  obtain ⟨levels, hlevels, hin⟩ := List.mem_flatten.mp hsent
  obtain ⟨index, hindex⟩ := List.mem_iff_getElem?.mp hlevels
  calc earConsecFrames
      ≤ closedFrames (framesRead actions) index := (steady_needs_frames hsteady index levels level hindex hin).1
    _ ≤ (framesRead actions).countP hasClosed := (List.take_sublist _ _).countP_le

/-! ### What has gone out stays out -/

theorem moves_sends {process next : MpuProcess} {action : MpuAction}
    (h : Moves process action next) : process.sends <+: next.sends := by
  cases h with
  | face eyes rest quit outcome hpc =>
      rcases face_cases { process with main := .faces rest quit } eyes outcome with
        ⟨-, hface⟩ | ⟨level, -, hface⟩
      · exact ⟨[], by rw [hface, List.append_nil]⟩
      · rw [hface]
        exact List.prefix_append _ _
  | simulate level outcome hpc hlevel =>
      split
      · exact List.prefix_append _ _
      · exact List.prefix_rfl
  | heartbeat counter outcome hcounter => exact List.prefix_append _ _
  | startSd | startHeartbeat | openCamera | readFails | read | frameEnd | sd | exit => exact List.prefix_rfl

theorem moves_packets {process next : MpuProcess} {action : MpuAction}
    (h : Moves process action next) : process.packets ⊆ next.packets :=
  List.map_subset _ ((moves_sends h).filter _).subset

theorem moves_stream {process next : MpuProcess} {action : MpuAction}
    (h : Moves process action next) : process.stream <+: next.stream := by
  obtain ⟨later, hlater⟩ := moves_sends h
  rw [stream, stream, ← hlater, List.flatMap_append]
  exact List.prefix_append _ _

theorem moves_offers {process next : MpuProcess} {action : MpuAction}
    (h : Moves process action next) : process.offers ⊆ next.offers := by
  have hsame : next.sd = process.sd → process.offers ⊆ next.offers := by
    intro hsd datagram hdatagram
    rw [offers, hsd]
    exact hdatagram
  cases h with
  | startSd hpc =>
      rw [offers, offers]
      cases process.sd with
      | none => exact fun _ hdatagram => hdatagram
      | some sd =>
          have hcalls := (SdProcess.start_frame sd).2
          simp only [Option.map_some, Option.toList_some, List.flatMap_singleton, SdProcess.sent, hcalls]
          exact fun _ hdatagram => hdatagram
  | sd sd after action hsd hstep =>
      rw [offers, hsd]
      simp only [offers, Option.toList_some, List.flatMap_singleton]
      exact List.map_subset _ (SdProcess.step_sent hstep).subset
  | face eyes rest quit outcome hpc =>
      apply hsame
      rcases face_cases { process with main := .faces rest quit } eyes outcome with
        ⟨-, hface⟩ | ⟨level, -, hface⟩
      · rw [hface]
      · rw [hface]
        rfl
  | simulate level outcome hpc hlevel =>
      apply hsame
      split <;> rfl
  | startHeartbeat | openCamera | readFails | read | frameEnd | heartbeat | exit => exact hsame rfl

/-- The server of a process that advertises an address. -/
def serverOf (ip : DottedQuad) : SdServer := .init serviceId instanceId ip someipPort

/-- The offers of the server carry the numbers of their calls. -/
def Advertises (dest : Option DottedQuad) (process : MpuProcess) : Prop :=
  ∀ sd, process.sd = some sd → ∃ ip outcomes, dest = some ip ∧ sd.Numbered (serverOf ip) outcomes

theorem boot_advertises (dest : Option DottedQuad) (camera : Bool) : Advertises dest (boot dest camera) := by
  intro sd hsd
  obtain ⟨ip, rfl, rfl⟩ := Option.map_eq_some_iff.mp hsd
  exact ⟨ip, [], rfl, SdProcess.numbered_run rfl rfl (@exec_nil _ _ SdProcess.step _)⟩

theorem moves_advertises {dest : Option DottedQuad} {process next : MpuProcess} {action : MpuAction}
    (h : Advertises dest process) (hmoves : Moves process action next) : Advertises dest next := by
  have hsame : next.sd = process.sd → Advertises dest next := by
    intro hsd sd hnext
    exact h sd (hsd.symm.trans hnext)
  cases hmoves with
  | startSd hpc =>
      intro sd hsd
      obtain ⟨before, hbefore, rfl⟩ := Option.map_eq_some_iff.mp hsd
      obtain ⟨ip, outcomes, hdest, hnumbered⟩ := h before hbefore
      exact ⟨ip, outcomes, hdest, hnumbered.frame (SdProcess.start_frame before).1 (SdProcess.start_frame before).2⟩
  | sd sd after action hsd hstep =>
      intro last hlast
      cases hlast
      obtain ⟨ip, outcomes, hdest, hnumbered⟩ := h sd hsd
      exact ⟨ip, _, hdest, hnumbered.step hstep⟩
  | face eyes rest quit outcome hpc =>
      apply hsame
      rcases face_cases { process with main := .faces rest quit } eyes outcome with
        ⟨-, hface⟩ | ⟨level, -, hface⟩
      · rw [hface]
      · rw [hface]
        rfl
  | simulate level outcome hpc hlevel =>
      apply hsame
      split <;> rfl
  | startHeartbeat | openCamera | readFails | read | frameEnd | heartbeat | exit => exact hsame rfl

/-- Every offer that has gone out is a packet of the server. -/
theorem run_offers {dest : Option DottedQuad} {camera : Bool} {actions : List MpuAction} {last : MpuProcess}
    (hrun : exec step (boot dest camera) actions = some last) :
    ∀ datagram ∈ last.offers, ∃ ip calls, datagram = (serverOf ip).offerPacket calls := by
  have hadvertises : Advertises dest last :=
    exec_induction (boot dest camera) (fun _ last => Advertises dest last) (boot_advertises dest camera)
      (fun _ _ _ _ _ hbefore hstep => moves_advertises hbefore (step_moves hstep)) actions last hrun
  intro datagram hdatagram
  obtain ⟨sd, hsd, hsent⟩ := List.mem_flatMap.mp hdatagram
  obtain ⟨ip, outcomes, -, hnumbered⟩ := hadvertises sd (Option.mem_toList.mp hsd)
  obtain ⟨sent, hmem, rfl⟩ := List.mem_map.mp hsent
  obtain ⟨call, hcall, rfl⟩ := List.mem_map.mp hmem
  obtain ⟨k, hk⟩ := List.mem_iff_getElem?.mp (List.mem_filter.mp hcall).1
  exact ⟨ip, k, by rw [hnumbered.sent_eq k call hk]⟩

/-- A level whose packet has gone out has been sent. -/
theorem notify_of_packets {process : MpuProcess} {packet : MpuPacket} {level : Nat}
    (hpacket : packet ∈ process.packets) (hnotify : packet.event = .notify level) :
    level ∈ notifyLevels process.sends := by
  obtain ⟨call, hcall, rfl⟩ := List.mem_map.mp hpacket
  refine List.mem_filterMap.mpr ⟨call, (List.mem_filter.mp hcall).1, ?_⟩
  rw [hnotify]

end MpuProcess

end SdvZone.Mpu
