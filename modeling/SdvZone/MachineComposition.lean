import SdvZone.MachineRun

/-! Two guarded machines side by side, of which the right one reads what the state of the left one lets
through. A run of the pair is an interleaving of a run of each, and what the link promises is kept
along the run of the right one as far as the left one never takes it back. -/

namespace SdvZone.Machine

section Composition

variable {σ τ ι κ : Type} (left : σ → ι → Option σ) (right : τ → κ → Option τ)
  (link : σ → τ → κ → Prop) [∀ sender receiver input, Decidable (link sender receiver input)]

/-- A step of either machine; the right one reads an input only over the link. -/
def compose (pair : σ × τ) : ι ⊕ κ → Option (σ × τ)
  | .inl input => (left pair.1 input).map fun next => (next, pair.2)
  | .inr input =>
      if link pair.1 pair.2 input then (right pair.2 input).map fun next => (pair.1, next) else none

variable {left right link}

theorem compose_cases {pair next : σ × τ} {input : ι ⊕ κ}
    (h : compose left right link pair input = some next) :
    (∃ own, input = .inl own ∧ left pair.1 own = some next.1 ∧ next.2 = pair.2) ∨
      ∃ own, input = .inr own ∧ link pair.1 pair.2 own ∧ right pair.2 own = some next.2 ∧
        next.1 = pair.1 := by
  cases input with
  | inl own =>
      obtain ⟨reached, hreached, rfl⟩ := Option.map_eq_some_iff.mp h
      exact .inl ⟨own, rfl, hreached, rfl⟩
  | inr own =>
      obtain ⟨hlink, hstep⟩ := Option.ite_none_right_eq_some.mp h
      obtain ⟨reached, hreached, rfl⟩ := Option.map_eq_some_iff.mp hstep
      exact .inr ⟨own, rfl, hlink, hreached, rfl⟩

/-- The inputs of the left machine, and of the right one. -/
def lefts (inputs : List (ι ⊕ κ)) : List ι := inputs.filterMap Sum.getLeft?

def rights (inputs : List (ι ⊕ κ)) : List κ := inputs.filterMap Sum.getRight?

theorem lefts_snoc (inputs : List (ι ⊕ κ)) (input : ι ⊕ κ) :
    lefts (inputs ++ [input]) = lefts inputs ++ input.getLeft?.toList := by
  rw [lefts, List.filterMap_append]
  cases input <;> rfl

theorem rights_snoc (inputs : List (ι ⊕ κ)) (input : ι ⊕ κ) :
    rights (inputs ++ [input]) = rights inputs ++ input.getRight?.toList := by
  rw [rights, List.filterMap_append]
  cases input <;> rfl

/-- A run of the pair is a run of each machine. Whatever the link promises in the state the left one is
in, and still holds in the states that follow, holds along the run of the right one in the state the
left one ends in. -/
theorem compose_run (promise : σ → τ → κ → Prop)
    (hlink : ∀ sender receiver input, link sender receiver input → promise sender receiver input)
    (hmono : ∀ sender own next, left sender own = some next →
      ∀ receiver input, promise sender receiver input → promise next receiver input)
    {pair last : σ × τ} {inputs : List (ι ⊕ κ)}
    (hrun : exec (compose left right link) pair inputs = some last) :
    exec left pair.1 (lefts inputs) = some last.1 ∧ exec right pair.2 (rights inputs) = some last.2 ∧
      Along right (promise last.1) pair.2 (rights inputs) := by
  refine exec_induction pair (fun inputs last => exec left pair.1 (lefts inputs) = some last.1 ∧
    exec right pair.2 (rights inputs) = some last.2 ∧
    Along right (promise last.1) pair.2 (rights inputs)) ?_ ?_ inputs last hrun
  · refine ⟨rfl, rfl, along_of_forall ?_⟩
    intro input hinput
    cases hinput
  · rintro inputs mid input last - ⟨hleft, hright, halong⟩ hstep
    rw [lefts_snoc, rights_snoc]
    rcases compose_cases hstep with ⟨own, rfl, hown, hother⟩ | ⟨own, rfl, hpassed, hown, hother⟩
    · refine ⟨(exec_snoc _ _ _ _).mpr ⟨mid.1, hleft, hown⟩, ?_, ?_⟩
      · rw [Sum.getRight?_inl, Option.toList_none, List.append_nil, hother]
        exact hright
      · rw [Sum.getRight?_inl, Option.toList_none, List.append_nil]
        exact halong.mono fun receiver input => hmono mid.1 own last.1 hown receiver input
    · refine ⟨?_, (exec_snoc _ _ _ _).mpr ⟨mid.2, hright, hown⟩, ?_⟩
      · rw [Sum.getLeft?_inr, Option.toList_none, List.append_nil, hother]
        exact hleft
      · rw [hother]
        exact halong.snoc hright (hlink _ _ _ hpassed)

end Composition

end SdvZone.Machine
