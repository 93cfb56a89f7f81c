import Mathlib.Data.List.Induction
import Mathlib.Data.List.Nodup

/-! Dictionaries that remember the order of insertion. Assigning to a key that is present replaces
its value in place; assigning to a new key appends it. After a list of assignments a key holds the
value it was assigned last. -/

namespace SdvZone

structure OrderedDict (κ ν : Type) where
  items : List (κ × ν)
  nodup : (items.map Prod.fst).Nodup

namespace OrderedDict

variable {κ ν : Type}

def empty : OrderedDict κ ν := { items := [], nodup := .nil }

/-- `list(dict.values())`. -/
def values (dict : OrderedDict κ ν) : List ν := dict.items.map Prod.snd

theorem mem_values (dict : OrderedDict κ ν) (value : ν) :
    value ∈ dict.values ↔ ∃ key, (key, value) ∈ dict.items := by
  simp [values]

/-- Values that show their key are all different. -/
theorem values_nodup (dict : OrderedDict κ ν) (keyOf : ν → κ)
    (h : ∀ key value, (key, value) ∈ dict.items → keyOf value = key) : dict.values.Nodup := by
  apply List.Nodup.of_map keyOf
  rw [values, List.map_map]
  have hkeys : dict.items.map (keyOf ∘ Prod.snd) = dict.items.map Prod.fst :=
    List.map_congr_left fun item hitem => h item.1 item.2 hitem
  rw [hkeys]
  exact dict.nodup

/-! ### Assignment -/

variable [DecidableEq κ]

/-- Replace the value of a key, or append it. -/
def setItems (key : κ) (value : ν) : List (κ × ν) → List (κ × ν)
  | [] => [(key, value)]
  | (other, old) :: rest =>
      if other = key then (key, value) :: rest else (other, old) :: setItems key value rest

theorem setItems_keys (key : κ) (value : ν) (items : List (κ × ν)) :
    (setItems key value items).map Prod.fst =
      items.map Prod.fst ++ (if key ∈ items.map Prod.fst then [] else [key]) := by
  induction items with
  | nil => rfl
  | cons item rest ih =>
      obtain ⟨other, old⟩ := item
      rw [setItems]
      by_cases hkey : other = key
      · rw [if_pos hkey, hkey, if_pos (by simp), List.append_nil]
        rfl
      · have hmem : key ∈ other :: rest.map Prod.fst ↔ key ∈ rest.map Prod.fst := by
          rw [List.mem_cons, or_iff_right (Ne.symm hkey)]
        rw [if_neg hkey, List.map_cons, ih, List.map_cons, List.cons_append]
        simp only [hmem]

def set (dict : OrderedDict κ ν) (key : κ) (value : ν) : OrderedDict κ ν where
  items := setItems key value dict.items
  nodup := by
    rw [setItems_keys]
    split
    · rw [List.append_nil]
      exact dict.nodup
    next hkey =>
      apply dict.nodup.append (List.nodup_singleton key)
      intro other hother hsame
      exact hkey (List.mem_singleton.mp hsame ▸ hother)

/-- An assignment replaces the items of its key and keeps the others. -/
theorem mem_setItems (key : κ) (value : ν) (items : List (κ × ν))
    (hnodup : (items.map Prod.fst).Nodup) (other : κ) (found : ν) :
    (other, found) ∈ setItems key value items ↔
      if other = key then found = value else (other, found) ∈ items := by
  induction items with
  | nil =>
      by_cases hkey : other = key
      · simp [setItems, hkey]
      · simp [setItems, hkey]
  | cons item rest ih =>
      obtain ⟨first, old⟩ := item
      rw [List.map_cons, List.nodup_cons] at hnodup
      rw [setItems]
      by_cases hfirst : first = key
      · subst hfirst
        rw [if_pos rfl, List.mem_cons]
        by_cases hkey : other = first
        · subst hkey
          have habsent : (other, found) ∉ rest := fun hmem => hnodup.1 (List.mem_map.mpr ⟨_, hmem, rfl⟩)
          simp [habsent]
        · simp [hkey]
      · rw [if_neg hfirst, List.mem_cons, ih hnodup.2, List.mem_cons]
        by_cases hkey : other = key
        · subst hkey
          simp [Ne.symm hfirst]
        · simp [hkey]

theorem mem_set (dict : OrderedDict κ ν) (key : κ) (value : ν) (other : κ) (found : ν) :
    (other, found) ∈ (dict.set key value).items ↔
      if other = key then found = value else (other, found) ∈ dict.items :=
  mem_setItems key value dict.items dict.nodup other found

/-- A list of assignments, in order. -/
def setAll (dict : OrderedDict κ ν) (updates : List (κ × ν)) : OrderedDict κ ν :=
  updates.foldl (fun dict update => dict.set update.1 update.2) dict

theorem setAll_append (dict : OrderedDict κ ν) (front back : List (κ × ν)) :
    dict.setAll (front ++ back) = (dict.setAll front).setAll back :=
  List.foldl_append

/-- What is found after a list of assignments was there before or has been assigned. -/
theorem mem_of_mem_setAll {dict : OrderedDict κ ν} {updates : List (κ × ν)} {key : κ} {value : ν}
    (h : (key, value) ∈ (dict.setAll updates).items) :
    (key, value) ∈ dict.items ∨ (key, value) ∈ updates := by
  induction updates using List.reverseRecOn with
  | nil => exact .inl h
  | append_singleton updates update ih =>
      obtain ⟨last, assigned⟩ := update
      rw [setAll_append] at h
      have hset : (key, value) ∈ ((dict.setAll updates).set last assigned).items := h
      rw [mem_set] at hset
      by_cases hkey : key = last
      · rw [if_pos hkey] at hset
        rw [hkey, hset]
        exact .inr (List.mem_append_right _ List.mem_cons_self)
      · rw [if_neg hkey] at hset
        exact (ih hset).imp_right (List.mem_append_left _)

/-- A key holds what it was assigned last. -/
theorem mem_setAll_empty (updates : List (κ × ν)) (key : κ) (value : ν) :
    (key, value) ∈ ((empty : OrderedDict κ ν).setAll updates).items ↔
      (updates.filter fun update => update.1 = key).getLast? = some (key, value) := by
  induction updates using List.reverseRecOn with
  | nil => simp [setAll, empty]
  | append_singleton updates update ih =>
      obtain ⟨last, assigned⟩ := update
      rw [setAll_append, List.filter_append]
      show (key, value) ∈ (((empty : OrderedDict κ ν).setAll updates).set last assigned).items ↔ _
      rw [mem_set, ih]
      by_cases hkey : key = last
      · subst hkey
        simp [eq_comm]
      · simp [hkey, Ne.symm hkey]

/-- The keys are the keys that were assigned. -/
theorem exists_mem_setAll_empty (updates : List (κ × ν)) (key : κ) :
    (∃ value, (key, value) ∈ ((empty : OrderedDict κ ν).setAll updates).items) ↔
      ∃ value, (key, value) ∈ updates := by
  constructor
  · rintro ⟨value, hvalue⟩
    rw [mem_setAll_empty] at hvalue
    exact ⟨value, List.mem_of_mem_filter (List.mem_of_getLast? hvalue)⟩
  · rintro ⟨value, hvalue⟩
    have hfilter : (key, value) ∈ updates.filter fun update => update.1 = key := by
      rw [List.mem_filter]
      exact ⟨hvalue, decide_eq_true rfl⟩
    obtain ⟨last, hlast⟩ : ∃ last, (updates.filter fun update => update.1 = key).getLast? = some last :=
      ⟨_, List.getLast?_eq_some_getLast (List.ne_nil_of_mem hfilter)⟩
    have hkey : last.1 = key := by
      simpa using (List.mem_filter.mp (List.mem_of_getLast? hlast)).2
    refine ⟨last.2, (mem_setAll_empty updates key last.2).mpr ?_⟩
    rw [hlast, ← hkey]

/-- When no key is assigned two values, the items are the assignments. -/
theorem mem_setAll_of_functional {updates : List (κ × ν)}
    (h : ∀ key value other, (key, value) ∈ updates → (key, other) ∈ updates → value = other)
    (key : κ) (value : ν) :
    (key, value) ∈ ((empty : OrderedDict κ ν).setAll updates).items ↔ (key, value) ∈ updates := by
  have hassigned : ∀ found, (key, found) ∈ ((empty : OrderedDict κ ν).setAll updates).items →
      (key, found) ∈ updates := by
    intro found hfound
    rw [mem_setAll_empty] at hfound
    exact List.mem_of_mem_filter (List.mem_of_getLast? hfound)
  constructor
  · exact hassigned value
  · intro hvalue
    obtain ⟨found, hfound⟩ := (exists_mem_setAll_empty updates key).mpr ⟨value, hvalue⟩
    rwa [h key value found hvalue (hassigned found hfound)]

end OrderedDict

end SdvZone
