import Mathlib.Data.Set.Basic
import Mathlib.Order.Nat
import SdvZone.LeakyCounter
import SdvZone.MpuDrowsiness

/-! When the camera loop raises its alarm. The counter runs over faces, not over frames, and nothing
bounds it from above: it is the largest excess of closed faces over twice the open ones that the faces
seen last show. -/

namespace SdvZone.Mpu

open Machine

/-- The faces with closed and with open eyes. -/
def closed (faces : List Nat) : Nat := LeakyCounter.ups eyesClosed faces

def opened (faces : List Nat) : Nat := LeakyCounter.downs eyesClosed faces

/-- The counter after some faces. -/
def counterAfter (counter : Nat) (faces : List Nat) : Nat := LeakyCounter.level eyesClosed 2 counter faces

/-- The counter is the excess of an end of the faces, or what all of them make of its first value. -/
theorem counterAfter_eq (counter : Nat) (faces : List Nat) :
    counterAfter counter faces + 2 * opened faces = counter + closed faces ∨
      ∃ recent, recent <:+ faces ∧ counterAfter counter faces + 2 * opened recent = closed recent :=
  LeakyCounter.level_eq counter faces

theorem closed_le (counter : Nat) {faces recent : List Nat} (h : recent <:+ faces) :
    closed recent ≤ 2 * opened recent + counterAfter counter faces :=
  LeakyCounter.excess_le counter h

theorem cameraFace_counter (counter eyes : Nat) :
    (cameraFace counter eyes).1 = LeakyCounter.step eyesClosed 2 counter eyes := by
  rw [cameraFace, LeakyCounter.step]
  split <;> rfl

theorem cameraFace_level (counter eyes level : Nat) :
    (cameraFace counter eyes).2 = some level ↔
      eyesClosed eyes = true ∧ 15 ≤ counter + 1 ∧ level = min (50 + (counter + 1) * 2) 100 := by
  rw [cameraFace]
  by_cases hclosed : eyesClosed eyes = true
  · rw [if_pos hclosed, Option.ite_none_right_eq_some, Option.some.injEq]
    exact ⟨fun ⟨hcount, hlevel⟩ => ⟨hclosed, hcount, hlevel.symm⟩,
      fun ⟨_, hcount, hlevel⟩ => ⟨hcount, hlevel.symm⟩⟩
  · rw [if_neg hclosed]
    exact ⟨nofun, fun h => absurd h.1 hclosed⟩

theorem react_counter (counter : Nat) (faces : List Nat) :
    (react cameraFace counter faces).1 = counterAfter counter faces := by
  induction faces generalizing counter with
  | nil => rfl
  | cons eyes rest ih =>
      rw [react_cons, ih, cameraFace_counter]
      rfl

/-- A level is sent for a face with closed eyes that brings the counter to 15 or more. -/
theorem mem_levels_iff (counter : Nat) (faces : List Nat) (level : Nat) :
    level ∈ (react cameraFace counter faces).2 ↔ ∃ front eyes back, faces = front ++ eyes :: back ∧
      eyesClosed eyes = true ∧ 15 ≤ counterAfter counter (front ++ [eyes]) ∧
      level = min (50 + counterAfter counter (front ++ [eyes]) * 2) 100 := by
  have hface : ∀ front eyes, eyesClosed eyes = true →
      counterAfter counter (front ++ [eyes]) = counterAfter counter front + 1 := by
    intro front eyes hclosed
    rcases LeakyCounter.snoc_cases eyesClosed 2 counter front eyes with ⟨-, -, -, hnext⟩ | ⟨hopen, -⟩
    · exact hnext
    · rw [hclosed] at hopen
      cases hopen
  rw [mem_react_iff]
  constructor
  · rintro ⟨front, eyes, back, hfaces, hlevel⟩
    rw [react_counter, cameraFace_level] at hlevel
    obtain ⟨hclosed, hcount, hlevel⟩ := hlevel
    rw [← hface front eyes hclosed] at hcount hlevel
    exact ⟨front, eyes, back, hfaces, hclosed, hcount, hlevel⟩
  · rintro ⟨front, eyes, back, hfaces, hclosed, hcount, hlevel⟩
    rw [hface front eyes hclosed] at hcount hlevel
    refine ⟨front, eyes, back, hfaces, ?_⟩
    rw [react_counter, cameraFace_level]
    exact ⟨hclosed, hcount, hlevel⟩

/-- Once the counter has come to 15, a level has been sent. -/
theorem levels_of_counter {counter : Nat} {faces : List Nat} (hstart : counter < 15)
    (h : 15 ≤ counterAfter counter faces) : ∃ level, level ∈ (react cameraFace counter faces).2 := by
  induction faces using List.reverseRecOn with
  | nil => exact absurd h (Nat.not_le.mpr hstart)
  | append_singleton faces eyes ih =>
      rcases LeakyCounter.snoc_cases eyesClosed 2 counter faces eyes with
        ⟨hclosed, -⟩ | ⟨-, -, -, hnext⟩
      · exact ⟨_, (mem_levels_iff _ _ _).mpr ⟨faces, eyes, [], rfl, hclosed, h, rfl⟩⟩
      · have hbefore : 15 ≤ counterAfter counter faces := by
          have hnow : counterAfter counter (faces ++ [eyes]) = counterAfter counter faces - 2 := hnext
          omega
        obtain ⟨level, hlevel⟩ := ih hbefore
        rw [react_append]
        exact ⟨level, List.mem_append_left _ hlevel⟩

/-! ### Frames -/

def hasClosed (read : Option Frame) : Bool := read.any fun frame => frame.faces.any eyesClosed

/-- How many of the frames up to the one at the index show closed eyes. -/
def closedFrames (reads : List (Option Frame)) (index : Nat) : Nat := (reads.take (index + 1)).countP hasClosed

/-- A Notify is sent only when 15 frames have shown closed eyes, with a level from 80 to 100. -/
def NeedsFrames (reads : List (Option Frame)) : Prop :=
  ∀ index levels level, (cameraLoop 0 reads)[index]? = some levels → level ∈ levels →
    earConsecFrames ≤ closedFrames reads index ∧ 80 ≤ level ∧ level ≤ 100

/-- The closed faces of a frame outnumber twice the open ones by at most one in every beginning and every
end of the frame, and by at most 14 in every stretch of it. -/
structure Steady (faces : List Nat) : Prop where
  front : ∀ part, part <+: faces → closed part ≤ 2 * opened part + 1
  back : ∀ part, part <:+ faces → closed part ≤ 2 * opened part + 1
  middle : ∀ part, part <:+: faces → closed part ≤ 2 * opened part + 14

/-- One face with closed eyes is never too many. -/
theorem steady_of_closed_le_one {faces : List Nat} (h : closed faces ≤ 1) : Steady faces := by
  have hpart : ∀ part, part <:+: faces → closed part ≤ 1 :=
    fun part hpart => Nat.le_trans hpart.sublist.countP_le h
  refine ⟨fun part hfront => ?_, fun part hback => ?_, fun part hmiddle => ?_⟩
  · exact Nat.le_trans (hpart part hfront.isInfix) (Nat.le_add_left _ _)
  · exact Nat.le_trans (hpart part hback.isInfix) (Nat.le_add_left _ _)
  · exact Nat.le_trans (hpart part hmiddle) (Nat.le_add_left _ _)

theorem steady_counter_le {faces : List Nat} (h : Steady faces) (counter : Nat) :
    counterAfter counter faces ≤ counter + (faces.any eyesClosed).toNat := by
  cases hany : faces.any eyesClosed with
  | false =>
      rw [List.any_eq_false] at hany
      rw [counterAfter, LeakyCounter.level_of_downs counter fun eyes heyes => eq_false_of_ne_true (hany eyes heyes)]
      exact Nat.sub_le _ _
  | true =>
      rw [Bool.toNat_true]
      rcases counterAfter_eq counter faces with hall | ⟨recent, hrecent, hexcess⟩
      · have hfront := h.front faces (List.prefix_refl _)
        omega
      · have hback := h.back recent hrecent
        omega

/-- Within such a frame a level is sent only when it finds the counter at 14 or more. -/
theorem steady_counter_ge {faces front : List Nat} (h : Steady faces) (hfront : front <+: faces)
    {counter : Nat} (hcount : 15 ≤ counterAfter counter front) : 14 ≤ counter := by
  rcases counterAfter_eq counter front with hall | ⟨recent, hrecent, hexcess⟩
  · have hstart := h.front front hfront
    omega
  · have hmiddle := h.middle recent (hrecent.isInfix.trans hfront.isInfix)
    omega

theorem mem_levels_steady {faces : List Nat} (h : Steady faces) {counter level : Nat}
    (hlevel : level ∈ (react cameraFace counter faces).2) : 14 ≤ counter ∧ faces.any eyesClosed = true := by
  obtain ⟨front, eyes, back, hfaces, hclosed, hcount, -⟩ := (mem_levels_iff _ _ _).mp hlevel
  refine ⟨steady_counter_ge h ⟨back, ?_⟩ hcount, List.any_eq_true.mpr ⟨eyes, ?_, hclosed⟩⟩
  · rw [hfaces, List.append_assoc, List.singleton_append]
  · rw [hfaces]
    exact List.mem_append_right _ List.mem_cons_self

theorem closedFrames_zero (read : Option Frame) (rest : List (Option Frame)) :
    closedFrames (read :: rest) 0 = (hasClosed read).toNat := by
  rw [closedFrames, List.take_succ_cons, List.take_zero]
  cases hread : hasClosed read <;> simp [hread]

theorem closedFrames_succ (read : Option Frame) (rest : List (Option Frame)) (index : Nat) :
    closedFrames (read :: rest) (index + 1) = (hasClosed read).toNat + closedFrames rest index := by
  rw [closedFrames, List.take_succ_cons, closedFrames]
  cases hread : hasClosed read <;> simp [hread, Nat.add_comm]

/-- The counter stays below the number of frames that have shown closed eyes. -/
theorem frames_needed {reads : List (Option Frame)}
    (hsteady : ∀ frame, some frame ∈ reads → Steady frame.faces) {counter before index : Nat}
    {levels : List Nat} {level : Nat} (hcounter : counter ≤ before)
    (hlevels : (cameraLoop counter reads)[index]? = some levels) (hlevel : level ∈ levels) :
    15 ≤ before + closedFrames reads index := by
  induction reads generalizing counter before index with
  | nil => cases hlevels
  | cons read rest ih =>
      cases read with
      | none => cases hlevels
      | some frame =>
          have hframe := hsteady frame List.mem_cons_self
          rw [cameraLoop] at hlevels
          cases index with
          | zero =>
              cases hlevels
              obtain ⟨hcount, hclosed⟩ := mem_levels_steady hframe hlevel
              rw [closedFrames_zero, hasClosed, Option.any_some, hclosed, Bool.toNat_true]
              omega
          | succ index =>
              rw [List.getElem?_cons_succ, react_counter] at hlevels
              split at hlevels
              next => cases hlevels
              next =>
                have hnext : counterAfter counter frame.faces ≤ before + (hasClosed (some frame)).toNat :=
                  Nat.le_trans (steady_counter_le hframe counter) (Nat.add_le_add_right hcounter _)
                rw [closedFrames_succ, ← Nat.add_assoc]
                exact ih (fun later hlater => hsteady later (List.mem_cons_of_mem _ hlater)) hnext hlevels

/-! ### Levels -/

theorem mem_cameraLoop {reads : List (Option Frame)} {counter : Nat} {levels : List Nat}
    (h : levels ∈ cameraLoop counter reads) :
    ∃ before faces, levels = (react cameraFace before faces).2 := by
  induction reads generalizing counter with
  | nil => cases h
  | cons read rest ih =>
      cases read with
      | none => cases h
      | some frame =>
          rw [cameraLoop] at h
          rcases List.mem_cons.mp h with rfl | hrest
          · exact ⟨counter, frame.faces, rfl⟩
          · split at hrest
            next => cases hrest
            next => exact ih hrest

theorem level_bounds {reads : List (Option Frame)} {counter level : Nat} {levels : List Nat}
    (hlevels : levels ∈ cameraLoop counter reads) (hlevel : level ∈ levels) : 80 ≤ level ∧ level ≤ 100 := by
  obtain ⟨before, faces, rfl⟩ := mem_cameraLoop hlevels
  obtain ⟨front, eyes, back, -, -, hcount, rfl⟩ := (mem_levels_iff _ _ _).mp hlevel
  omega

/-! ### Frames that are not steady -/

/-- The loop goes on behind such a frame. -/
def running (faces : List Nat) : Option Frame := some ⟨faces, false⟩

theorem flatten_cameraLoop (counter : Nat) (frames : List (List Nat)) :
    (cameraLoop counter (frames.map running)).flatten = (react cameraFace counter frames.flatten).2 := by
  induction frames generalizing counter with
  | nil => rfl
  | cons faces rest ih =>
      rw [List.flatten_cons, react_append]
      exact congrArg _ (ih _)

/-- Faces that bring the counter to 15 within fewer than 15 frames. -/
theorem window_breaks (part : List Nat) {frames : List (List Nat)} (hlength : frames.length ≤ 14)
    (hpart : part <:+: frames.flatten) (hexcess : 2 * opened part + 15 ≤ closed part) :
    ¬ NeedsFrames (frames.map running) := by
  intro h
  obtain ⟨front, back, hfaces⟩ := hpart
  have hcount : 15 ≤ counterAfter 0 (front ++ part) := by
    have hpart := closed_le 0 (List.suffix_append front part)
    omega
  obtain ⟨level, hlevel⟩ := levels_of_counter (by decide) hcount
  have hsent : level ∈ (cameraLoop 0 (frames.map running)).flatten := by
    rw [flatten_cameraLoop, ← hfaces, react_append]
    exact List.mem_append_left _ hlevel
  obtain ⟨levels, hlevels, hin⟩ := List.mem_flatten.mp hsent
  obtain ⟨index, hindex⟩ := List.mem_iff_getElem?.mp hlevels
  have hneeded := (h index levels level hindex hin).1
  have hframes : closedFrames (frames.map running) index ≤ frames.length := by
    calc closedFrames (frames.map running) index
        ≤ ((frames.map running).take (index + 1)).length := List.countP_le_length
      _ ≤ (frames.map running).length := List.length_take_le' _ _
      _ = frames.length := List.length_map _
  rw [earConsecFrames] at hneeded
  omega

theorem closed_replicate (count : Nat) : closed (List.replicate count 0) = count := by
  rw [closed, LeakyCounter.ups, List.countP_replicate]
  exact if_pos rfl

theorem opened_replicate (count : Nat) : opened (List.replicate count 0) = 0 := by
  rw [opened, LeakyCounter.downs, List.countP_replicate]
  exact if_neg (by decide)

/-- A frame among frames of one face, with its eyes closed. -/
def amongBlinks (before behind : Nat) (faces : List Nat) : List (List Nat) :=
  List.replicate before [0] ++ [faces] ++ List.replicate behind [0]

theorem length_amongBlinks (before behind : Nat) (faces : List Nat) :
    (amongBlinks before behind faces).length = before + 1 + behind := by
  simp [amongBlinks, Nat.add_assoc, Nat.add_comm 1]

theorem mem_amongBlinks {before behind : Nat} {faces read : List Nat}
    (h : read ∈ amongBlinks before behind faces) : read = faces ∨ read = [0] := by
  rw [amongBlinks, List.mem_append, List.mem_append, List.mem_singleton] at h
  rcases h with (hbefore | hfaces) | hbehind
  · exact .inr (List.eq_of_mem_replicate hbefore)
  · exact .inl hfaces
  · exact .inr (List.eq_of_mem_replicate hbehind)

theorem flatten_amongBlinks (before behind : Nat) (faces : List Nat) :
    (amongBlinks before behind faces).flatten =
      List.replicate before 0 ++ faces ++ List.replicate behind 0 := by
  rw [amongBlinks, List.flatten_append, List.flatten_append, List.flatten_replicate_singleton,
    List.flatten_replicate_singleton, List.flatten_singleton]

theorem closed_append (front back : List Nat) : closed (front ++ back) = closed front + closed back :=
  LeakyCounter.ups_append front back

theorem opened_append (front back : List Nat) : opened (front ++ back) = opened front + opened back :=
  LeakyCounter.downs_append front back

/-- Behind or before 13 such frames, or on its own, a frame that is not steady brings an alarm early. -/
theorem unsteady_breaks {faces : List Nat} (h : ¬ Steady faces) :
    ∃ before behind, ¬ NeedsFrames ((amongBlinks before behind faces).map running) := by
  by_contra! hall
  refine h ⟨fun part hpart => ?_, fun part hpart => ?_, fun part hpart => ?_⟩
  · by_contra hexcess
    refine window_breaks (List.replicate 13 0 ++ part) (length_amongBlinks 13 0 faces).le ?_ ?_ (hall 13 0)
    · rw [flatten_amongBlinks, List.replicate_zero, List.append_nil]
      exact ((List.prefix_append_right_inj _).mpr hpart).isInfix
    · rw [closed_append, opened_append, closed_replicate, opened_replicate]
      omega
  · by_contra hexcess
    refine window_breaks (part ++ List.replicate 13 0) (length_amongBlinks 0 13 faces).le ?_ ?_ (hall 0 13)
    · rw [flatten_amongBlinks, List.replicate_zero, List.nil_append]
      exact (List.suffix_append_self_iff.mpr hpart).isInfix
    · rw [closed_append, opened_append, closed_replicate, opened_replicate]
      omega
  · by_contra hexcess
    refine window_breaks part ((length_amongBlinks 0 0 faces).le.trans (by decide)) ?_ ?_ (hall 0 0)
    · rw [flatten_amongBlinks, List.replicate_zero, List.nil_append, List.append_nil]
      exact hpart
    · omega

theorem steady_needs_frames {reads : List (Option Frame)}
    (h : ∀ frame, some frame ∈ reads → Steady frame.faces) : NeedsFrames reads := by
  intro index levels level hlevels hlevel
  have hneeded := frames_needed h le_rfl hlevels hlevel
  rw [Nat.zero_add] at hneeded
  exact ⟨hneeded, level_bounds (List.mem_of_getElem? hlevels) hlevel⟩

/-- The runs of frames with at most one closed face and of frames of some further kinds all need 15
frames exactly when these kinds are steady. -/
theorem notify_needs_frames_iff (kinds : Set (List Nat)) :
    (∀ reads, (∀ frame, some frame ∈ reads → closed frame.faces ≤ 1 ∨ frame.faces ∈ kinds) →
      NeedsFrames reads) ↔ ∀ faces ∈ kinds, Steady faces := by
  constructor
  · intro h faces hfaces
    by_contra hunsteady
    obtain ⟨before, behind, hbreaks⟩ := unsteady_breaks hunsteady
    refine hbreaks (h _ fun frame hframe => ?_)
    obtain ⟨read, hread, hrunning⟩ := List.mem_map.mp hframe
    cases hrunning
    rcases mem_amongBlinks hread with rfl | rfl
    · exact .inr hfaces
    · exact .inl le_rfl
  · intro h reads hreads
    refine steady_needs_frames fun frame hframe => ?_
    rcases hreads frame hframe with hone | hkind
    · exact steady_of_closed_le_one hone
    · exact h frame.faces hkind

/-- Two faces with closed eyes in each of eight frames. -/
theorem not_notify_needs_frames : ¬ ∀ reads, NeedsFrames reads := by
  intro h
  have hneeded := h (List.replicate 8 (some ⟨[0, 0], false⟩)) 7 [80, 82] 80 (by decide) (by decide)
  exact absurd hneeded.1 (by decide)

/-! ### Old episodes -/

theorem cameraLoop_snoc (counter : Nat) (frames : List (List Nat)) (faces : List Nat) :
    cameraLoop counter ((frames ++ [faces]).map running) =
      cameraLoop counter (frames.map running) ++
        [(react cameraFace (counterAfter counter frames.flatten) faces).2] := by
  induction frames generalizing counter with
  | nil => rfl
  | cons first rest ih =>
      rw [List.flatten_cons, counterAfter, LeakyCounter.level_append]
      refine congrArg _ ((ih _).trans ?_)
      rw [react_counter]
      rfl

theorem blink_silent_iff (counter blink : Nat) (hblink : eyesClosed blink = true) :
    (react cameraFace counter [blink]).2 = [] ↔ counter + 1 < 15 := by
  rw [react_cons, react_nil, List.append_nil, Option.toList_eq_nil_iff, Option.eq_none_iff_forall_ne_some]
  constructor
  · intro h
    by_contra hcount
    exact h _ ((cameraFace_level _ _ _).mpr ⟨hblink, Nat.not_lt.mp hcount, rfl⟩)
  · intro hcount level hlevel
    exact absurd ((cameraFace_level _ _ _).mp hlevel).2.1 (Nat.not_le.mpr hcount)

/-- One face a frame: behind the history and `bound` frames with open eyes, one frame with closed eyes
sends no Notify. -/
def ForgetsAfter (bound : Nat) (history : List Nat) : Prop :=
  ∀ opens blink, opens.length = bound → (∀ eyes ∈ opens, eyesClosed eyes = false) → eyesClosed blink = true →
    (cameraLoop 0 ((history ++ opens ++ [blink]).map fun eyes => running [eyes])).getLast? = some []

theorem forgetsAfter_iff (bound : Nat) (history : List Nat) :
    ForgetsAfter bound history ↔ counterAfter 0 history < 2 * bound + 14 := by
  have hlast : ∀ opens blink, opens.length = bound → (∀ eyes ∈ opens, eyesClosed eyes = false) →
      eyesClosed blink = true →
      ((cameraLoop 0 ((history ++ opens ++ [blink]).map fun eyes => running [eyes])).getLast? = some [] ↔
        counterAfter 0 history < 2 * bound + 14) := by
    intro opens blink hlength hopens hblink
    have hmap : (history ++ opens ++ [blink]).map (fun eyes => running [eyes]) =
        ((history ++ opens).map (fun eyes => [eyes]) ++ [[blink]]).map running := by
      simp only [List.map_append, List.map_map, List.map_cons, List.map_nil]
      rfl
    have hcounter : counterAfter 0 (history ++ opens) = counterAfter 0 history - 2 * bound := by
      rw [counterAfter, LeakyCounter.level_append, LeakyCounter.level_of_downs _ hopens, hlength]
      rfl
    rw [hmap, cameraLoop_snoc, List.getLast?_concat, Option.some.injEq, blink_silent_iff _ _ hblink,
      ← List.flatMap_def, List.flatMap_singleton', hcounter]
    omega
  constructor
  · intro h
    have hopens : ∀ eyes ∈ List.replicate bound 2, eyesClosed eyes = false := by
      intro eyes heyes
      rw [List.eq_of_mem_replicate heyes]
      rfl
    exact (hlast _ 0 List.length_replicate hopens rfl).mp (h _ 0 List.length_replicate hopens rfl)
  · intro h opens blink hlength hopens hblink
    exact (hlast opens blink hlength hopens hblink).mpr h

/-- The counter is below a limit when no end of the history shows an excess that reaches it. -/
theorem counterAfter_lt_iff (history : List Nat) (limit : Nat) :
    counterAfter 0 history < limit ↔
      ∀ recent, recent <:+ history → closed recent < 2 * opened recent + limit := by
  constructor
  · intro h recent hrecent
    have hexcess := closed_le 0 hrecent
    omega
  · intro h
    rcases counterAfter_eq 0 history with hall | ⟨recent, hrecent, hexcess⟩
    · have hwhole := h history (List.suffix_refl _)
      omega
    · have hpart := h recent hrecent
      omega

/-- Some number of frames with open eyes ends the alarms of all the histories exactly when there is a
limit to the excess of closed eyes at the ends of these histories. -/
theorem alarm_forgets_iff (histories : Set (List Nat)) :
    (∃ bound, ∀ history ∈ histories, ForgetsAfter bound history) ↔
      ∃ limit, ∀ history ∈ histories, ∀ recent, recent <:+ history →
        closed recent ≤ 2 * opened recent + limit := by
  constructor
  · rintro ⟨bound, h⟩
    refine ⟨2 * bound + 14, fun history hhistory recent hrecent => ?_⟩
    have hcounter := (forgetsAfter_iff bound history).mp (h history hhistory)
    exact ((counterAfter_lt_iff history _).mp hcounter recent hrecent).le
  · rintro ⟨limit, h⟩
    refine ⟨limit, fun history hhistory => (forgetsAfter_iff limit history).mpr ?_⟩
    rw [counterAfter_lt_iff]
    intro recent hrecent
    have hexcess := h history hhistory recent hrecent
    omega

/-- A history of `2 * bound + 14` frames with closed eyes outlasts the bound. -/
theorem not_alarm_forgets : ¬ ∃ bound, ∀ history, ForgetsAfter bound history := by
  rintro ⟨bound, h⟩
  have hcounter := (forgetsAfter_iff bound _).mp (h (List.replicate (2 * bound + 14) 0))
  have hexcess := closed_le 0 (List.suffix_refl (List.replicate (2 * bound + 14) 0))
  rw [closed_replicate, opened_replicate] at hexcess
  omega

/-! ### Alarms as windows -/

/-- The faces that the loop comes to, until a read fails or `q` is pressed. -/
def facesSeen : List (Option Frame) → List Nat
  | [] => []
  | none :: _ => []
  | some frame :: rest => frame.faces ++ if frame.quit then [] else facesSeen rest

/-- The level for the last of the faces: its eyes are closed, and among the faces seen last so many are
closed that the open ones make up for all but 15 or more at most. -/
def windowLevel (faces : List Nat) : Option Nat := do
  let eyes ← faces.getLast?
  let excess ← (faces.tails.map fun recent => closed recent - 2 * opened recent).max?
  if eyesClosed eyes ∧ earConsecFrames ≤ excess then some (min (50 + excess * 2) 100) else none

theorem windowLevel_snoc (faces : List Nat) (eyes : Nat) :
    windowLevel (faces ++ [eyes]) = (cameraFace (counterAfter 0 faces) eyes).2 := by
  have hexcess : ((faces ++ [eyes]).tails.map fun recent => closed recent - 2 * opened recent).max? =
      some (cameraFace (counterAfter 0 faces) eyes).1 := by
    rw [cameraFace_counter]
    exact (LeakyCounter.level_eq_max? _).trans (congrArg some (LeakyCounter.level_append 0 faces [eyes]))
  simp only [windowLevel, hexcess, List.getLast?_concat, Option.bind_eq_bind, Option.bind_some]
  rw [cameraFace]
  cases hclosed : eyesClosed eyes <;> simp

theorem react_windows (faces : List Nat) : (react cameraFace 0 faces).2 = faces.inits.filterMap windowLevel := by
  induction faces using List.reverseRecOn with
  | nil => rfl
  | append_singleton faces eyes ih =>
      have hlast : (react cameraFace (counterAfter 0 faces) [eyes]).2 =
          [faces ++ [eyes]].filterMap windowLevel := by
        rw [react_cons, react_nil, List.append_nil, List.filterMap_cons, windowLevel_snoc]
        cases (cameraFace (counterAfter 0 faces) eyes).2 <;> rfl
      rw [react_append, ih, react_counter 0 faces, hlast, List.inits_append, List.filterMap_append]
      rfl

theorem cameraLoop_faces (counter : Nat) (reads : List (Option Frame)) :
    (cameraLoop counter reads).flatten = (react cameraFace counter (facesSeen reads)).2 := by
  induction reads generalizing counter with
  | nil => rfl
  | cons read rest ih =>
      cases read with
      | none => rfl
      | some frame =>
          rw [facesSeen, react_append, cameraLoop, List.flatten_cons]
          refine congrArg _ ?_
          cases frame.quit with
          | true => rfl
          | false => exact ih _

/-- The levels that the camera loop sends, with the counter it carries along, are those of the windows
of the faces seen: for each face the largest excess decides that some window ending there shows. -/
theorem cameraLoop_windows (reads : List (Option Frame)) :
    (cameraLoop 0 reads).flatten = (facesSeen reads).inits.filterMap windowLevel := by
  rw [cameraLoop_faces, react_windows]

example : windowLevel (List.replicate 13 0 ++ [2] ++ List.replicate 4 1) = some 80 := by decide +kernel

end SdvZone.Mpu
