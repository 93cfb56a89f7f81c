import Mathlib.Data.List.Forall2
import Mathlib.Data.List.Induction
import Mathlib.Data.List.ReduceOption

/-! Runs of state machines. A reactive machine answers each input with a new state and possibly an
output; a guarded machine refuses the inputs that are not enabled. Both are run over lists of
inputs, and what one step preserves is carried to whole runs once, here. -/

namespace SdvZone.Machine

section Reactive

variable {σ τ ι κ ω ε : Type}

/-- The last state and the outputs, in order, of a reactive machine. -/
def react (step : σ → ι → σ × Option ω) : σ → List ι → σ × List ω
  | state, [] => (state, [])
  | state, input :: rest =>
      ((react step (step state input).1 rest).1,
        (step state input).2.toList ++ (react step (step state input).1 rest).2)

variable (step : σ → ι → σ × Option ω)

@[simp] theorem react_nil (state : σ) : react step state [] = (state, []) := rfl

theorem react_cons (state : σ) (input : ι) (rest : List ι) :
    react step state (input :: rest) =
      ((react step (step state input).1 rest).1,
        (step state input).2.toList ++ (react step (step state input).1 rest).2) := rfl

theorem react_append (state : σ) (front back : List ι) :
    react step state (front ++ back) =
      ((react step (react step state front).1 back).1,
        (react step state front).2 ++ (react step (react step state front).1 back).2) := by
  induction front generalizing state with
  | nil => rfl
  | cons input rest ih => simp only [List.cons_append, react_cons, ih, List.append_assoc]

theorem react_snoc (state : σ) (inputs : List ι) (input : ι) :
    react step state (inputs ++ [input]) =
      ((step (react step state inputs).1 input).1,
        (react step state inputs).2 ++ (step (react step state inputs).1 input).2.toList) := by
  rw [react_append, react_cons, react_nil, List.append_nil]

/-- Every output is given for some input, in the state that the inputs before it lead to. -/
theorem mem_react_iff (state : σ) (inputs : List ι) (output : ω) :
    output ∈ (react step state inputs).2 ↔ ∃ front input back, inputs = front ++ input :: back ∧
      (step (react step state front).1 input).2 = some output := by
  constructor
  · intro h
    induction inputs generalizing state with
    | nil => cases h
    | cons head rest ih =>
        rw [react_cons, List.mem_append] at h
        rcases h with hhead | hrest
        · exact ⟨[], head, rest, rfl, Option.mem_toList.mp hhead⟩
        · obtain ⟨front, input, back, rfl, hinput⟩ := ih _ hrest
          exact ⟨head :: front, input, back, rfl, hinput⟩
  · rintro ⟨front, input, back, rfl, hinput⟩
    rw [react_append, react_cons, hinput]
    exact List.mem_append_right _ List.mem_cons_self

theorem toList_inj {first second : Option ω} (h : first.toList = second.toList) :
    first = second := by
  cases first <;> cases second <;> simp_all

/-- A property of the inputs read, the state reached and the outputs given holds after every run,
when it holds at the start and every input keeps it. -/
theorem react_induction (state : σ) (inv : List ι → σ → List ω → Prop) (hinit : inv [] state [])
    (hstep : ∀ inputs mid outputs input, inv inputs mid outputs →
      inv (inputs ++ [input]) (step mid input).1 (outputs ++ (step mid input).2.toList))
    (inputs : List ι) : inv inputs (react step state inputs).1 (react step state inputs).2 := by
  induction inputs using List.reverseRecOn with
  | nil => exact hinit
  | append_singleton inputs input ih =>
      rw [react_snoc]
      exact hstep inputs _ _ input ih

/-- The inputs of an abstract machine that a concrete run stands for. -/
def translate (tr : σ → ι → List κ) : σ → List ι → List κ
  | _, [] => []
  | state, input :: rest => tr state input ++ translate tr (step state input).1 rest

/-- When every concrete step is a run of the abstract machine over its translation, with related
outputs, so is every concrete run. -/
theorem react_refines (abstractStep : τ → κ → τ × Option ε) (inv : σ → Prop) (abst : σ → τ)
    (rel : ω → ε → Prop) (tr : σ → ι → List κ)
    (hstep : ∀ state input, inv state → inv (step state input).1 ∧
      (react abstractStep (abst state) (tr state input)).1 = abst (step state input).1 ∧
      List.Forall₂ rel (step state input).2.toList
        (react abstractStep (abst state) (tr state input)).2)
    (state : σ) (inputs : List ι) (hstate : inv state) :
    (react abstractStep (abst state) (translate step tr state inputs)).1 =
        abst (react step state inputs).1 ∧
      List.Forall₂ rel (react step state inputs).2
        (react abstractStep (abst state) (translate step tr state inputs)).2 := by
  induction inputs generalizing state with
  | nil => exact ⟨rfl, .nil⟩
  | cons input rest ih =>
      obtain ⟨hinv, hlast, hout⟩ := hstep state input hstate
      obtain ⟨hlasts, houts⟩ := ih _ hinv
      rw [translate, react_append, hlast, react_cons]
      exact ⟨hlasts, List.rel_append hout houts⟩

/-- A translation feeds the abstract machine exactly the elements the inputs carry. -/
theorem translate_reduceOption {α : Type} (tr : σ → ι → List (Option α)) (carried : ι → List α)
    (htr : ∀ state input, (tr state input).reduceOption = carried input)
    (state : σ) (inputs : List ι) :
    (translate step tr state inputs).reduceOption = inputs.flatMap carried := by
  induction inputs generalizing state with
  | nil => rfl
  | cons input rest ih =>
      rw [translate, List.reduceOption_append, htr, ih, List.flatMap_cons]

end Reactive

section Guarded

variable {σ ι : Type}

/-- The state a guarded machine reaches, when every input of the run is enabled in its turn. -/
def exec (step : σ → ι → Option σ) (state : σ) (inputs : List ι) : Option σ :=
  inputs.foldlM step state

variable {step : σ → ι → Option σ}

@[simp] theorem exec_nil (state : σ) : exec step state [] = some state := rfl

theorem exec_cons {state next : σ} {input : ι} (hnext : step state input = some next) (rest : List ι) :
    exec step state (input :: rest) = exec step next rest := by
  rw [exec, List.foldlM_cons, hnext]
  rfl

theorem exec_append (state : σ) (front back : List ι) :
    exec step state (front ++ back) =
      (exec step state front).bind fun mid => exec step mid back := by
  simp only [exec, List.foldlM_append]
  rfl

theorem exec_snoc (state last : σ) (inputs : List ι) (input : ι) :
    exec step state (inputs ++ [input]) = some last ↔
      ∃ mid, exec step state inputs = some mid ∧ step mid input = some last := by
  rw [exec_append, Option.bind_eq_some_iff]
  simp [exec]

/-- A run comes to each of its inputs. -/
theorem exec_split {state last : σ} {front back : List ι} {input : ι}
    (hrun : exec step state (front ++ input :: back) = some last) :
    ∃ mid next, exec step state front = some mid ∧ step mid input = some next ∧
      exec step next back = some last := by
  rw [exec_append] at hrun
  obtain ⟨mid, hmid, hrest⟩ := Option.bind_eq_some_iff.mp hrun
  obtain ⟨next, hnext, hback⟩ := Option.bind_eq_some_iff.mp hrest
  exact ⟨mid, next, hmid, hnext, hback⟩

/-- A property of the inputs read and the state reached holds of every run, when it holds at the
start and every enabled input keeps it. -/
theorem exec_induction (state : σ) (inv : List ι → σ → Prop) (hinit : inv [] state)
    (hstep : ∀ inputs mid input last, exec step state inputs = some mid → inv inputs mid →
      step mid input = some last → inv (inputs ++ [input]) last)
    (inputs : List ι) (last : σ) (hrun : exec step state inputs = some last) : inv inputs last := by
  induction inputs using List.reverseRecOn generalizing last with
  | nil =>
      cases hrun
      exact hinit
  | append_singleton inputs input ih =>
      obtain ⟨mid, hmid, hlast⟩ := (exec_snoc state last inputs input).mp hrun
      exact hstep inputs mid input last hmid (ih mid hmid) hlast

/-- What an observer sees of a run who looks at each input and the state it is read in. -/
def observe {α : Type} (step : σ → ι → Option σ) (view : σ → ι → List α) : σ → List ι → List α
  | _, [] => []
  | state, input :: rest =>
      view state input ++
        match step state input with
        | some next => observe step view next rest
        | none => []

theorem observe_cons {α : Type} (view : σ → ι → List α) {state next : σ} {input : ι}
    (hnext : step state input = some next) (rest : List ι) :
    observe step view state (input :: rest) = view state input ++ observe step view next rest := by
  rw [observe, hnext]

theorem observe_append {α : Type} (view : σ → ι → List α) {state mid : σ} {front : List ι}
    (hrun : exec step state front = some mid) (back : List ι) :
    observe step view state (front ++ back) = observe step view state front ++ observe step view mid back := by
  induction front generalizing state with
  | nil =>
      cases hrun
      rfl
  | cons head rest ih =>
      rw [exec, List.foldlM_cons] at hrun
      obtain ⟨next, hnext, hrest⟩ := Option.bind_eq_some_iff.mp hrun
      rw [List.cons_append, observe_cons view hnext, observe_cons view hnext, ih hrest, List.append_assoc]

theorem observe_snoc {α : Type} (view : σ → ι → List α) {state mid : σ} {inputs : List ι}
    (hrun : exec step state inputs = some mid) (input : ι) :
    observe step view state (inputs ++ [input]) = observe step view state inputs ++ view mid input := by
  rw [observe_append view hrun, observe]
  cases step mid input <;> exact congrArg _ (List.append_nil _)

/-- What there is to see of one input is among what there is to see of the run. -/
theorem view_subset_observe {α : Type} (view : σ → ι → List α) {state mid : σ} {front : List ι}
    (hrun : exec step state front = some mid) (input : ι) (back : List ι) :
    view mid input ⊆ observe step view state (front ++ input :: back) := by
  rw [observe_append view hrun, observe]
  exact List.Subset.trans (List.subset_append_left _ _) (List.subset_append_right _ _)

/-- What is seen of a run is seen of one of its inputs, in the state it is read in. -/
theorem mem_observe {α : Type} {view : σ → ι → List α} {state last : σ} {inputs : List ι} {seen : α}
    (hrun : exec step state inputs = some last) (hseen : seen ∈ observe step view state inputs) :
    ∃ front input back mid next, inputs = front ++ input :: back ∧ exec step state front = some mid ∧
      step mid input = some next ∧ exec step next back = some last ∧ seen ∈ view mid input := by
  induction inputs generalizing state with
  | nil => cases hseen
  | cons input rest ih =>
      rw [exec, List.foldlM_cons] at hrun
      obtain ⟨next, hnext, hrest⟩ := Option.bind_eq_some_iff.mp hrun
      rw [observe_cons view hnext, List.mem_append] at hseen
      rcases hseen with hnow | hlater
      · exact ⟨[], input, rest, state, next, rfl, rfl, hnext, hrest, hnow⟩
      · obtain ⟨front, later, back, mid, after, rfl, hfront, hafter, hback, hmem⟩ := ih hrest hlater
        exact ⟨input :: front, later, back, mid, after, rfl, (exec_cons hnext front).trans hfront, hafter,
          hback, hmem⟩

/-- Every input of the run meets a condition on it and the state it is read in. -/
def Along (step : σ → ι → Option σ) (condition : σ → ι → Prop) (state : σ) (inputs : List ι) : Prop :=
  ∀ front input mid, front ++ [input] <+: inputs → exec step state front = some mid →
    condition mid input

theorem Along.front {condition : σ → ι → Prop} {state : σ} {inputs : List ι} {input : ι}
    (h : Along step condition state (inputs ++ [input])) : Along step condition state inputs := by
  intro front input mid hfront hmid
  exact h front input mid (hfront.trans (List.prefix_append _ _)) hmid

theorem along_of_forall {condition : σ → ι → Prop} {state : σ} {inputs : List ι}
    (h : ∀ input ∈ inputs, ∀ mid, condition mid input) : Along step condition state inputs := by
  intro front input mid hfront _
  apply h
  exact hfront.subset (List.mem_append_right _ List.mem_cons_self)

theorem Along.mono {condition weaker : σ → ι → Prop} {state : σ} {inputs : List ι}
    (h : Along step condition state inputs)
    (hweaker : ∀ mid input, condition mid input → weaker mid input) :
    Along step weaker state inputs :=
  fun front input mid hfront hmid => hweaker mid input (h front input mid hfront hmid)

theorem Along.snoc {condition : σ → ι → Prop} {state last : σ} {inputs : List ι} {input : ι}
    (h : Along step condition state inputs) (hrun : exec step state inputs = some last)
    (hlast : condition last input) : Along step condition state (inputs ++ [input]) := by
  intro front final mid hfront hmid
  rcases List.prefix_concat_iff.mp hfront with heq | hshorter
  · obtain ⟨rfl, hfinal⟩ := List.append_inj' heq rfl
    rw [hrun] at hmid
    cases hmid
    cases hfinal
    exact hlast
  · exact h front final mid hshorter hmid

/-- A property holds after every run along which a condition is met, when it holds at the start and
every enabled input that meets the condition keeps it. -/
theorem Along.exec_induction {condition : σ → ι → Prop} {state : σ} {inv : σ → Prop}
    (hinit : inv state)
    (hstep : ∀ mid input last, inv mid → condition mid input → step mid input = some last → inv last)
    {inputs : List ι} {last : σ} (halong : Along step condition state inputs)
    (hrun : exec step state inputs = some last) : inv last := by
  refine Machine.exec_induction state (fun inputs last => Along step condition state inputs → inv last)
    (fun _ => hinit) ?_ inputs last hrun halong
  intro inputs mid input last hmid hinv hlast halong
  exact hstep mid input last (hinv halong.front) (halong inputs input mid (List.prefix_refl _) hmid)
    hlast

/-- The run comes through a state with a property. -/
def Once (step : σ → ι → Option σ) (property : σ → Prop) (state : σ) (inputs : List ι) : Prop :=
  ∃ front mid, front <+: inputs ∧ exec step state front = some mid ∧ property mid

theorem once_nil {property : σ → Prop} {state : σ} : Once step property state [] ↔ property state := by
  constructor
  · rintro ⟨front, mid, hfront, hmid, hproperty⟩
    cases List.prefix_nil.mp hfront
    cases hmid
    exact hproperty
  · intro hproperty
    exact ⟨[], state, List.prefix_refl _, rfl, hproperty⟩

theorem once_snoc {property : σ → Prop} {state last : σ} {inputs : List ι} {input : ι}
    (hrun : exec step state (inputs ++ [input]) = some last) :
    Once step property state (inputs ++ [input]) ↔ Once step property state inputs ∨ property last := by
  constructor
  · rintro ⟨front, mid, hfront, hmid, hproperty⟩
    rcases List.prefix_concat_iff.mp hfront with rfl | hshorter
    · rw [hrun] at hmid
      cases hmid
      exact .inr hproperty
    · exact .inl ⟨front, mid, hshorter, hmid, hproperty⟩
  · rintro (⟨front, mid, hfront, hmid, hproperty⟩ | hproperty)
    · exact ⟨front, mid, hfront.trans (List.prefix_append _ _), hmid, hproperty⟩
    · exact ⟨_, last, List.prefix_refl _, hrun, hproperty⟩

/-- Two guarded machines that move in lockstep, each enabled when the other is, do so over whole
runs. -/
theorem exec_lockstep {τ : Type} {abstractStep : τ → ι → Option τ} (rel : σ → τ → Prop)
    (hstep : ∀ state abst input, rel state abst →
      Option.Rel rel (step state input) (abstractStep abst input))
    {state : σ} {abst : τ} (hstart : rel state abst) (inputs : List ι) :
    Option.Rel rel (exec step state inputs) (exec abstractStep abst inputs) := by
  induction inputs using List.reverseRecOn with
  | nil => exact .some hstart
  | append_singleton inputs input ih =>
      rw [exec_append, exec_append]
      generalize exec step state inputs = reached at ih
      generalize exec abstractStep abst inputs = abstReached at ih
      cases ih with
      | none => exact .none
      | some hrel =>
          simp only [exec, Option.bind_some, List.foldlM_cons, List.foldlM_nil, bind_pure]
          exact hstep _ _ input hrel

end Guarded

end SdvZone.Machine
