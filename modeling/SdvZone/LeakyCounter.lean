import Mathlib.Data.List.Induction
import Mathlib.Data.List.Infix
import Mathlib.Tactic.Common

/-! A counter that goes up by one for some of the elements it meets and leaks for all others, stopping
at 0. Its level is the largest excess of the one kind over the leaks of the other that an end of the
list shows, or the excess of the whole list over the level it started with. -/

namespace SdvZone.LeakyCounter

variable {α : Type} (up : α → Bool) (leak : Nat)

def step (level : Nat) (a : α) : Nat := if up a then level + 1 else level - leak

def level (start : Nat) (as : List α) : Nat := as.foldl (step up leak) start

/-- The elements the counter goes up for, and the others. -/
def ups (as : List α) : Nat := as.countP up

def downs (as : List α) : Nat := as.countP fun a => !up a

variable {up leak}

@[simp] theorem ups_nil : ups up [] = 0 := rfl

@[simp] theorem downs_nil : downs up [] = 0 := rfl

theorem ups_append (front back : List α) : ups up (front ++ back) = ups up front + ups up back :=
  List.countP_append

theorem downs_append (front back : List α) :
    downs up (front ++ back) = downs up front + downs up back :=
  List.countP_append

theorem level_append (start : Nat) (front back : List α) :
    level up leak start (front ++ back) = level up leak (level up leak start front) back :=
  List.foldl_append

variable (up leak) in
/-- One more element, of either kind. -/
theorem snoc_cases (start : Nat) (as : List α) (a : α) :
    (up a = true ∧ ups up [a] = 1 ∧ downs up [a] = 0 ∧
      level up leak start (as ++ [a]) = level up leak start as + 1) ∨
    (up a = false ∧ ups up [a] = 0 ∧ downs up [a] = 1 ∧
      level up leak start (as ++ [a]) = level up leak start as - leak) := by
  rw [level_append]
  cases ha : up a with
  | true => exact .inl ⟨rfl, by simp [ups, ha], by simp [downs, ha], by simp [level, step, ha]⟩
  | false => exact .inr ⟨rfl, by simp [ups, ha], by simp [downs, ha], by simp [level, step, ha]⟩

theorem start_le (start : Nat) (as : List α) :
    start + ups up as ≤ leak * downs up as + level up leak start as := by
  induction as using List.reverseRecOn with
  | nil => exact Nat.le_add_left _ _
  | append_singleton as a ih =>
      rw [ups_append, downs_append, Nat.mul_add]
      rcases snoc_cases up leak start as a with ⟨-, hup, hdown, hlevel⟩ | ⟨-, hup, hdown, hlevel⟩
      all_goals
        rw [hup, hdown, hlevel]
        omega

/-- The level is at least the excess of every end of the list. -/
theorem excess_le (start : Nat) {as recent : List α} (h : recent <:+ as) :
    ups up recent ≤ leak * downs up recent + level up leak start as := by
  obtain ⟨front, rfl⟩ := h
  rw [level_append]
  exact Nat.le_trans (Nat.le_add_left _ _) (start_le (level up leak start front) recent)

/-- Where the counter does not stop at 0, an element adds its own excess. -/
theorem level_snoc {start : Nat} {as : List α} {a : α} (h : up a = true ∨ leak ≤ level up leak start as) :
    level up leak start (as ++ [a]) + leak * downs up [a] = level up leak start as + ups up [a] := by
  rcases snoc_cases up leak start as a with ⟨-, hup, hdown, hlevel⟩ | ⟨hopen, hup, hdown, hlevel⟩
  · rw [hup, hdown, hlevel]
    omega
  · have hleak : leak ≤ level up leak start as := h.resolve_left (ne_true_of_eq_false hopen)
    rw [hup, hdown, hlevel]
    omega

/-- And it is one of these. -/
theorem level_eq (start : Nat) (as : List α) :
    level up leak start as + leak * downs up as = start + ups up as ∨
      ∃ recent, recent <:+ as ∧ level up leak start as + leak * downs up recent = ups up recent := by
  induction as using List.reverseRecOn with
  | nil => exact .inl rfl
  | append_singleton as a ih =>
      by_cases hflow : up a = true ∨ leak ≤ level up leak start as
      · have hnext := level_snoc hflow
        rcases ih with hall | ⟨recent, hrecent, hexcess⟩
        · left
          rw [ups_append, downs_append, Nat.mul_add]
          omega
        · right
          refine ⟨recent ++ [a], List.suffix_append_self_iff.mpr hrecent, ?_⟩
          rw [ups_append, downs_append, Nat.mul_add]
          omega
      · -- the counter stops at 0, the excess of no elements
        right
        refine ⟨[], List.nil_suffix, ?_⟩
        rcases snoc_cases up leak start as a with ⟨hup, -⟩ | ⟨-, -, -, hlevel⟩
        · exact absurd (.inl hup) hflow
        · have hleak : ¬ leak ≤ level up leak start as := fun hleak => hflow (.inr hleak)
          rw [hlevel, ups_nil, downs_nil]
          omega

/-- From 0, the level is the largest excess of an end of the list. -/
theorem level_eq_max? (as : List α) :
    (as.tails.map fun recent => ups up recent - leak * downs up recent).max? = some (level up leak 0 as) := by
  rw [List.max?_eq_some_iff]
  constructor
  · rw [List.mem_map]
    rcases @level_eq α up leak 0 as with hall | ⟨recent, hrecent, hexcess⟩
    · exact ⟨as, (List.mem_tails _ _).mpr (List.suffix_refl as), by omega⟩
    · exact ⟨recent, (List.mem_tails _ _).mpr hrecent, by omega⟩
  · intro excess hmem
    obtain ⟨recent, hrecent, rfl⟩ := List.mem_map.mp hmem
    have hbound := @excess_le α up leak 0 _ _ ((List.mem_tails _ _).mp hrecent)
    omega

/-- Elements of the other kind only let it leak. -/
theorem level_of_downs (start : Nat) {as : List α} (h : ∀ a ∈ as, up a = false) :
    level up leak start as = start - leak * as.length := by
  induction as using List.reverseRecOn with
  | nil => rfl
  | append_singleton as a ih =>
      rw [level_append, ih fun b hb => h b (List.mem_append_left _ hb), List.length_append, List.length_singleton,
        Nat.mul_succ, ← Nat.sub_sub]
      exact if_neg (by rw [h a (List.mem_append_right _ List.mem_cons_self)]; decide)

end SdvZone.LeakyCounter
