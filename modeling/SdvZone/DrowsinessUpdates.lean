import Mathlib.Data.List.Chain
import SdvZone.McuMain
import SdvZone.MachineRun

/-! What becomes of the drowsiness levels `someip_thread` stores, over every interleaving with
`can_thread`. A level is lost exactly when `can_thread` clears the variable right after the store:
it clears whatever is there, not what it has read. -/

namespace SdvZone.Mcu

open Machine

namespace LevelAccess

/-- The value of the variable after an access. -/
def leaves (access : LevelAccess) (level : Nat) : Nat :=
  match access with
  | .get _ => level
  | .store level => level
  | .clear => 0

/-- The value of the variable after some accesses, from the value it starts with. -/
def value (accesses : List LevelAccess) : Nat :=
  accesses.foldl (fun level access => access.leaves level) Shared.static.drowsinessLevel

/-- Nothing has been written. -/
def Unwritten (accesses : List LevelAccess) : Prop :=
  ∀ access ∈ accesses, ∃ level, access = .get level

/-- The accesses show the level read before anything else is written. -/
def Read (level : Nat) (accesses : List LevelAccess) : Prop :=
  ∃ front back, accesses = front ++ .get level :: back ∧ Unwritten front

/-- The first thing written is the level of a later Notify. -/
def Overwritten (accesses : List LevelAccess) : Prop :=
  ∃ front level back, accesses = front ++ .store level :: back ∧ Unwritten front

/-- An access that does not clear the nonzero level just stored. -/
def Keeps (before after : LevelAccess) : Prop :=
  ∀ level, before = .store level → after = .clear → level = 0

theorem value_snoc (accesses : List LevelAccess) (access : LevelAccess) :
    value (accesses ++ [access]) = access.leaves (value accesses) := by
  rw [value, List.foldl_append]
  rfl

theorem unwritten_nil : Unwritten [] := by
  intro access haccess
  cases haccess

theorem unwritten_head {access : LevelAccess} {accesses front back : List LevelAccess}
    {next : LevelAccess} (h : access :: accesses = front ++ next :: back) (hfront : Unwritten front) :
    access = next ∨ ∃ level, access = .get level := by
  cases front with
  | nil =>
      left
      exact (List.cons.inj h).1
  | cons head tail =>
      right
      rw [(List.cons.inj h).1]
      exact hfront head List.mem_cons_self

end LevelAccess

open LevelAccess

/-- Every nonzero level stored is still in the variable, or was read by `can_thread`, or was
overwritten by a later Notify. -/
def Threads.NoLostUpdate (threads : Threads) : Prop :=
  ∀ earlier level later, threads.accesses = earlier ++ .store level :: later → level ≠ 0 →
    (threads.shared.drowsinessLevel = level ∧ Unwritten later) ∨ Read level later ∨ Overwritten later

/-- The record of accesses is the history of the variable. -/
structure Threads.Recorded (threads : Threads) : Prop where
  value : threads.shared.drowsinessLevel = LevelAccess.value threads.accesses
  reads : ∀ earlier level later, threads.accesses = earlier ++ .get level :: later →
    level = LevelAccess.value earlier

/-- What one step does to `drowsiness_level`. -/
inductive Touched (threads next : Threads) : Prop where
  | untouched (haccesses : next.accesses = threads.accesses)
      (hlevel : next.shared.drowsinessLevel = threads.shared.drowsinessLevel)
  | get (haccesses : next.accesses = threads.accesses ++ [.get threads.shared.drowsinessLevel])
      (hlevel : next.shared.drowsinessLevel = threads.shared.drowsinessLevel)
  | store (level : Nat) (haccesses : next.accesses = threads.accesses ++ [.store level])
      (hlevel : next.shared.drowsinessLevel = level)
  | clear (haccesses : next.accesses = threads.accesses ++ [.clear])
      (hlevel : next.shared.drowsinessLevel = 0)

theorem canStep_touched (threads : Threads) : Touched threads threads.canStep := by
  unfold Threads.canStep
  split
  · exact .get rfl rfl
  · exact .untouched rfl rfl
  · exact .clear rfl rfl
  · exact .untouched rfl rfl

theorem someipStep_touched {threads next : Threads} {uptime : Nat}
    (h : threads.someipStep uptime = some next) : Touched threads next := by
  unfold Threads.someipStep at h
  split at h
  · cases h
  · cases h
    exact .untouched rfl rfl
  next event _ =>
    cases h
    by_cases hevent : event.1 = eventNotify
    · refine .store event.2.toNat ?_ ?_
      · simp only [if_pos hevent]
      · simp only [Shared.storeLevel, if_pos hevent]
    · refine .untouched ?_ ?_
      · simp only [if_neg hevent, List.append_nil]
      · simp only [Shared.storeLevel, if_neg hevent]
  · cases h
    exact .untouched rfl rfl

theorem step_touched {threads next : Threads} {input : ThreadStep}
    (h : threads.step input = some next) : Touched threads next := by
  cases input with
  | can =>
      cases h
      exact canStep_touched threads
  | accept event =>
      simp only [Threads.step] at h
      split at h
      · cases h
        exact .untouched rfl rfl
      · cases h
  | someip uptime => exact someipStep_touched h

/-- Only `can_thread` clears the variable, in its step after the send. -/
theorem step_clears {threads next : Threads} {input : ThreadStep}
    (h : threads.step input = some next) :
    next.accesses = threads.accesses ++ [.clear] ↔ input = .can ∧ threads.can = .clear := by
  cases input with
  | can =>
      cases h
      simp only [Threads.canStep, true_and]
      split <;> simp [*]
  | accept event =>
      simp only [Threads.step] at h
      split at h
      · cases h
        simp
      · cases h
  | someip uptime =>
      simp only [Threads.step, Threads.someipStep] at h
      split at h <;> cases h <;> simp
      split <;> simp

theorem start_recorded : Threads.start.Recorded := by
  refine ⟨rfl, ?_⟩
  intro earlier level later h
  cases earlier <;> cases h

theorem recorded_snoc {threads next : Threads} {access : LevelAccess} (h : threads.Recorded)
    (haccesses : next.accesses = threads.accesses ++ [access])
    (hlevel : next.shared.drowsinessLevel = access.leaves threads.shared.drowsinessLevel)
    (hget : ∀ level, access = .get level → level = threads.shared.drowsinessLevel) :
    next.Recorded := by
  constructor
  · rw [hlevel, haccesses, value_snoc, h.value]
  · intro earlier level later hsplit
    rw [haccesses] at hsplit
    rcases List.eq_nil_or_concat later with rfl | ⟨init, last, rfl⟩
    · obtain ⟨hearlier, haccess⟩ := List.append_inj' hsplit rfl
      rw [hget level (List.cons.inj haccess).1, h.value, hearlier]
    · rw [List.concat_eq_append, ← List.cons_append, ← List.append_assoc] at hsplit
      exact h.reads earlier level init (List.append_inj' hsplit rfl).1

theorem step_recorded {threads next : Threads} {input : ThreadStep} (h : threads.Recorded)
    (hstep : threads.step input = some next) : next.Recorded := by
  cases step_touched hstep with
  | untouched haccesses hlevel =>
      constructor
      · rw [hlevel, haccesses, h.value]
      · rw [haccesses]
        exact h.reads
  | get haccesses hlevel =>
      refine recorded_snoc h haccesses hlevel ?_
      intro level heq
      cases heq
      rfl
  | store level haccesses hlevel =>
      apply recorded_snoc h haccesses hlevel
      intro _ heq
      cases heq
  | clear haccesses hlevel =>
      apply recorded_snoc h haccesses hlevel
      intro _ heq
      cases heq

theorem run_recorded {steps : List ThreadStep} {last : Threads}
    (hrun : exec Threads.step Threads.start steps = some last) : last.Recorded :=
  exec_induction Threads.start (fun _ threads => threads.Recorded) start_recorded
    (fun _ _ _ _ _ hrecorded hstep => step_recorded hrecorded hstep) steps last hrun

/-- The access after the store of a level decides what becomes of it. -/
theorem noLostUpdate_iff_keeps {threads : Threads} (h : threads.Recorded) :
    threads.NoLostUpdate ↔ threads.accesses.IsChain Keeps := by
  rw [List.isChain_iff_forall_rel_of_append_cons_cons]
  constructor
  · intro hkept before after earlier later hsplit level hstore hclear
    by_contra hlevel
    subst hstore hclear
    rcases hkept earlier level _ hsplit hlevel with ⟨_, hheld⟩ | ⟨front, back, hread, hfront⟩ |
      ⟨front, next, back, hover, hfront⟩
    · obtain ⟨_, hget⟩ := hheld .clear List.mem_cons_self
      cases hget
    · rcases unwritten_head hread hfront with hget | ⟨_, hget⟩ <;> cases hget
    · rcases unwritten_head hover hfront with hstore | ⟨_, hget⟩
      · cases hstore
      · cases hget
  · intro hchain earlier level later hsplit hlevel
    cases later with
    | nil =>
        refine Or.inl ⟨?_, unwritten_nil⟩
        rw [h.value, hsplit, value_snoc]
        rfl
    | cons next rest =>
        cases next with
        | get read =>
            have hread := h.reads (earlier ++ [.store level]) read rest (by simp [hsplit])
            rw [value_snoc] at hread
            refine Or.inr (Or.inl ⟨[], rest, ?_, unwritten_nil⟩)
            rw [hread]
            rfl
        | store newer =>
            exact Or.inr (Or.inr ⟨[], newer, rest, rfl, unwritten_nil⟩)
        | clear => exact absurd (hchain hsplit level rfl rfl) hlevel

/-- Before a clear: the last access was not the store of a nonzero level. -/
def Threads.Unstored (threads : Threads) : Prop :=
  ∀ level, threads.accesses.getLast? = some (.store level) → level = 0

theorem keeps_snoc {threads next : Threads} {access : LevelAccess}
    (haccesses : next.accesses = threads.accesses ++ [access]) :
    next.accesses.IsChain Keeps ↔
      threads.accesses.IsChain Keeps ∧ (access = .clear → threads.Unstored) := by
  rw [haccesses, List.isChain_append]
  constructor
  · rintro ⟨hchain, -, hlast⟩
    refine ⟨hchain, ?_⟩
    intro hclear level hstore
    exact hlast _ hstore access rfl level rfl hclear
  · rintro ⟨hchain, hunstored⟩
    refine ⟨hchain, .singleton access, ?_⟩
    intro before hbefore after hafter level hstore hclear
    cases hafter
    subst hstore
    exact hunstored hclear level hbefore

theorem keeps_touched {threads next : Threads} {input : ThreadStep} {access : LevelAccess}
    (hstep : threads.step input = some next)
    (haccesses : next.accesses = threads.accesses ++ [access]) :
    next.accesses.IsChain Keeps ↔ threads.accesses.IsChain Keeps ∧
      (input = .can → threads.can = .clear → threads.Unstored) := by
  have hclears : access = .clear ↔ input = .can ∧ threads.can = .clear := by
    rw [← step_clears hstep, haccesses, List.append_cancel_left_eq, List.singleton_inj]
  rw [keeps_snoc haccesses, hclears, and_imp]

/-- One step keeps the updates exactly when it is not the clear of a level just stored. -/
theorem step_keeps {threads next : Threads} {input : ThreadStep}
    (hstep : threads.step input = some next) :
    next.accesses.IsChain Keeps ↔ threads.accesses.IsChain Keeps ∧
      (input = .can → threads.can = .clear → threads.Unstored) := by
  cases step_touched hstep with
  | untouched haccesses _ =>
      have hclears : ¬(input = .can ∧ threads.can = .clear) := by
        rw [← step_clears hstep, haccesses]
        simp
      rw [haccesses]
      refine ⟨?_, And.left⟩
      intro hchain
      refine ⟨hchain, ?_⟩
      intro hcan hclear
      exact absurd ⟨hcan, hclear⟩ hclears
  | get haccesses _ => exact keeps_touched hstep haccesses
  | store level haccesses _ => exact keeps_touched hstep haccesses
  | clear haccesses _ => exact keeps_touched hstep haccesses

/-- Every clear of a run comes when the last access was not the store of a nonzero level. -/
def ClearsUnstored (steps : List ThreadStep) : Prop :=
  ∀ front before, front ++ [.can] <+: steps → exec Threads.step Threads.start front = some before →
    before.can = .clear → before.Unstored

theorem clearsUnstored_snoc {steps : List ThreadStep} {input : ThreadStep} {mid : Threads}
    (hmid : exec Threads.step Threads.start steps = some mid) :
    ClearsUnstored (steps ++ [input]) ↔
      ClearsUnstored steps ∧ (input = .can → mid.can = .clear → mid.Unstored) := by
  constructor
  · intro hclears
    constructor
    · intro front before hfront
      apply hclears front before
      exact hfront.trans (List.prefix_append _ _)
    · rintro rfl
      exact hclears steps mid (List.prefix_refl _) hmid
  · rintro ⟨hclears, hlast⟩ front before hfront hbefore
    rcases List.prefix_concat_iff.mp hfront with heq | hshorter
    · obtain ⟨rfl, hinput⟩ := List.append_inj' heq rfl
      rw [hmid] at hbefore
      cases hbefore
      exact hlast (List.cons.inj hinput).1.symm
    · exact hclears front before hshorter hbefore

theorem run_keeps {steps : List ThreadStep} {last : Threads}
    (hrun : exec Threads.step Threads.start steps = some last) :
    last.accesses.IsChain Keeps ↔ ClearsUnstored steps := by
  refine exec_induction Threads.start
    (fun steps threads => threads.accesses.IsChain Keeps ↔ ClearsUnstored steps) ?_ ?_ steps last hrun
  · refine ⟨?_, fun _ => .nil⟩
    intro _ front before hfront
    have hlength := hfront.length_le
    simp at hlength
  · intro steps mid input last hmid hkeeps hstep
    rw [step_keeps hstep, hkeeps, clearsUnstored_snoc hmid]

/-- Over any interleaving no update is lost exactly when no clear follows the store of a nonzero
level. -/
theorem noLostUpdate_iff (steps : List ThreadStep) (last : Threads)
    (hrun : exec Threads.step Threads.start steps = some last) :
    last.NoLostUpdate ↔ ClearsUnstored steps := by
  rw [noLostUpdate_iff_keeps (run_recorded hrun), run_keeps hrun]

/-- A Notify is accepted, read, sent and cleared. -/
def singleUpdateRun : List ThreadStep :=
  [.accept (eventNotify, 85), .someip 10, .someip 10, .someip 10, .can, .can, .can]

theorem noLostUpdate_single : ∃ last, exec Threads.step Threads.start singleUpdateRun = some last ∧
    (last.NoLostUpdate ↔ ClearsUnstored singleUpdateRun) :=
  ⟨_, rfl, noLostUpdate_iff singleUpdateRun _ rfl⟩

/-- A Notify is accepted, read and sent; a second one is stored during the send and then cleared. -/
def lostUpdateRun : List ThreadStep :=
  [.accept (eventNotify, 85), .someip 10, .someip 10, .someip 10, .can,
    .accept (eventNotify, 90), .someip 20, .someip 20, .can, .can]

/-- The level stored last was never read and is not in the variable. -/
theorem lostUpdateRun_lost :
    (exec Threads.step Threads.start lostUpdateRun).map
        (fun last => (last.shared.drowsinessLevel, last.accesses)) =
      some (0, [.store 85, .get 85, .store 90, .clear]) ∧
    ∀ last, exec Threads.step Threads.start lostUpdateRun = some last → ¬last.NoLostUpdate := by
  have hrun : (exec Threads.step Threads.start lostUpdateRun).map
      (fun last => (last.shared.drowsinessLevel, last.accesses)) =
        some (0, [.store 85, .get 85, .store 90, .clear]) := by decide
  refine ⟨hrun, ?_⟩
  intro last hlast hkept
  rw [hlast] at hrun
  have haccesses : last.accesses = [.store 85, .get 85] ++ .store 90 :: [.clear] :=
    (Prod.mk.inj (Option.some.inj hrun)).2
  have hchain := (noLostUpdate_iff_keeps (run_recorded hlast)).mp hkept
  rw [List.isChain_iff_forall_rel_of_append_cons_cons] at hchain
  exact absurd (hchain haccesses 90 rfl rfl) (by decide)

end SdvZone.Mcu
