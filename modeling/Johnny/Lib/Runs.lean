import Mathlib.Tactic.Common

/-!
# Runs of a step function

A run feeds a list of inputs to a step function. An invariant that every step
keeps holds in every state a run reaches.
-/

variable {σ ι : Type}

/-- The state after the inputs, one after the other. -/
def runSteps (step : ι → σ → σ) : List ι → σ → σ
  | [], s => s
  | i :: is, s => runSteps step is (step i s)

@[simp] theorem runSteps_nil (step : ι → σ → σ) (s : σ) : runSteps step [] s = s := rfl

@[simp] theorem runSteps_cons (step : ι → σ → σ) (i : ι) (is : List ι) (s : σ) :
    runSteps step (i :: is) s = runSteps step is (step i s) := rfl

theorem runSteps_append (step : ι → σ → σ) (is js : List ι) (s : σ) :
    runSteps step (is ++ js) s = runSteps step js (runSteps step is s) := by
  induction is generalizing s with
  | nil => rfl
  | cons i is ih => exact ih (step i s)

theorem runSteps_eq_foldl (step : ι → σ → σ) (is : List ι) (s : σ) :
    runSteps step is s = is.foldl (fun s i => step i s) s := by
  induction is generalizing s with
  | nil => rfl
  | cons i is ih => exact ih (step i s)

theorem runSteps_invariant {step : ι → σ → σ} {I : σ → Prop}
    (preserved : ∀ i s, I s → I (step i s)) (is : List ι) {s : σ} (h : I s) :
    I (runSteps step is s) := by
  induction is generalizing s with
  | nil => exact h
  | cons i is ih => exact ih (preserved i s h)

theorem each_nil {step : ι → σ → σ} {C : ι → σ → Prop} {s : σ} :
    ∀ before i after, [] = before ++ i :: after → C i (runSteps step before s) := by
  intro before i after split
  simp at split

/-- A condition on every step of a run, as one on the first step and on those of the rest. -/
theorem each_cons {step : ι → σ → σ} {C : ι → σ → Prop} {i : ι} {is : List ι} {s : σ} :
    (∀ before j after, i :: is = before ++ j :: after → C j (runSteps step before s)) ↔
      C i s ∧ ∀ before j after, is = before ++ j :: after →
        C j (runSteps step before (step i s)) := by
  constructor
  · intro each
    exact ⟨each [] i is rfl, fun before j after split =>
      each (i :: before) j after (by rw [split, List.cons_append])⟩
  · rintro ⟨first, rest⟩ before j after split
    cases before with
    | nil =>
        cases split
        exact first
    | cons k before =>
        obtain ⟨rfl, tail⟩ := List.cons.inj split
        exact rest before j after tail

/-- The same for steps that must meet a condition in the state they start from. -/
theorem runSteps_invariant_of {step : ι → σ → σ} {I : σ → Prop} {C : ι → σ → Prop}
    (preserved : ∀ i s, C i s → I s → I (step i s)) (is : List ι) {s : σ}
    (cond : ∀ before i after, is = before ++ i :: after → C i (runSteps step before s))
    (h : I s) : I (runSteps step is s) := by
  induction is generalizing s with
  | nil => exact h
  | cons i is ih =>
      obtain ⟨first, rest⟩ := each_cons.mp cond
      exact ih rest (preserved i s first h)

/-- In a run whose steps all meet the condition, the invariant holds before each step. -/
theorem runSteps_invariant_at {step : ι → σ → σ} {I : σ → Prop} {C : ι → σ → Prop}
    (preserved : ∀ i s, C i s → I s → I (step i s)) {is : List ι} {s : σ}
    (cond : ∀ before i after, is = before ++ i :: after → C i (runSteps step before s))
    (h : I s) {before : List ι} {i : ι} {after : List ι} (split : is = before ++ i :: after) :
    I (runSteps step before s) := by
  refine runSteps_invariant_of preserved before ?_ h
  intro earlier j later inner
  refine cond earlier j (later ++ i :: after) ?_
  rw [split, inner, List.append_assoc, List.cons_append]

/-- Where a property holds after a step exactly if it held before and the step met a condition,
it holds after a run exactly if it held at the start and every step met its condition. -/
theorem runSteps_iff {step : ι → σ → σ} {P : σ → Prop} {C : ι → σ → Prop} {I : σ → Prop}
    {is : List ι} (preserved : ∀ i ∈ is, ∀ s, I s → I (step i s))
    (each : ∀ i ∈ is, ∀ s, I s → (P (step i s) ↔ P s ∧ C i s)) {s : σ} (h : I s) :
    P (runSteps step is s) ↔
      P s ∧ ∀ before i after, is = before ++ i :: after → C i (runSteps step before s) := by
  induction is generalizing s with
  | nil => simp
  | cons i is ih =>
      have rest := ih (fun j inside => preserved j (List.mem_cons_of_mem i inside))
        (fun j inside => each j (List.mem_cons_of_mem i inside))
        (preserved i List.mem_cons_self s h)
      rw [runSteps_cons, rest, each i List.mem_cons_self s h, and_assoc, each_cons]

/-- Where a step from a state with a property has it after exactly if it met a condition, the
property holds all along a run exactly if every step met its condition. -/
theorem runSteps_always_iff {step : ι → σ → σ} {P : σ → Prop} {C : ι → σ → Prop} {I : σ → Prop}
    (preserved : ∀ i s, I s → I (step i s))
    (each : ∀ i s, I s → P s → (P (step i s) ↔ C i s)) (is : List ι) {s : σ} (h : I s)
    (start : P s) :
    (∀ before after, is = before ++ after → P (runSteps step before s)) ↔
      ∀ before i after, is = before ++ i :: after → C i (runSteps step before s) := by
  constructor
  · intro always before i after split
    refine (each i _ (runSteps_invariant preserved before h)
      (always before (i :: after) split)).mp ?_
    have next := always (before ++ [i]) after (by rw [split, List.append_assoc]; rfl)
    rwa [runSteps_append] at next
  · intro cond before after split
    have kept : I (runSteps step before s) ∧ P (runSteps step before s) := by
      refine runSteps_invariant_of (I := fun t => I t ∧ P t) (C := C)
        (fun i t met held => ⟨preserved i t held.1, (each i t held.1 held.2).mpr met⟩) before ?_
        ⟨h, start⟩
      intro earlier i later inner
      refine cond earlier i (later ++ after) ?_
      rw [split, inner, List.append_assoc, List.cons_append]
    exact kept.2

/-- Where a step adds to a list only what it wrote, everything on the list after a run was there at
the start or was written by one of its steps. -/
theorem runSteps_traced {τ : Type} {step : ι → σ → σ} {f : σ → List τ} {W : ι → σ → τ → Prop}
    (each : ∀ i s, ∀ x ∈ f (step i s), x ∈ f s ∨ W i s x) (is : List ι) {s : σ} {x : τ}
    (inside : x ∈ f (runSteps step is s)) :
    x ∈ f s ∨ ∃ before i after, is = before ++ i :: after ∧ W i (runSteps step before s) x := by
  induction is generalizing s with
  | nil => exact .inl inside
  | cons i is ih =>
      rcases ih inside with first | ⟨before, j, after, split, wrote⟩
      · rcases each i s x first with old | wrote
        · exact .inl old
        · exact .inr ⟨[], i, is, rfl, wrote⟩
      · exact .inr ⟨i :: before, j, after, by rw [split, List.cons_append], wrote⟩

/-- Where every step that meets a condition lowers a measure, a run of such steps is no longer
than the measure it starts with. -/
theorem runSteps_length_le {step : ι → σ → σ} {I : σ → Prop} {C : ι → σ → Prop}
    (measure : σ → ℕ) (preserved : ∀ i s, I s → I (step i s))
    (lower : ∀ i s, I s → C i s → measure (step i s) + 1 ≤ measure s) (is : List ι) {s : σ}
    (h : I s)
    (cond : ∀ before i after, is = before ++ i :: after → C i (runSteps step before s)) :
    is.length ≤ measure s := by
  induction is generalizing s with
  | nil => exact Nat.zero_le _
  | cons i is ih =>
      obtain ⟨met, later⟩ := each_cons.mp cond
      have first := lower i s h met
      have rest := ih (preserved i s h) later
      rw [List.length_cons]
      omega

/-- Where such a step exists in every state that is not done, some run of such steps ends in one
that is. -/
theorem runSteps_exhausts {step : ι → σ → σ} {I D : σ → Prop} {C : ι → σ → Prop}
    (measure : σ → ℕ) (preserved : ∀ i s, I s → I (step i s))
    (lower : ∀ i s, I s → C i s → measure (step i s) + 1 ≤ measure s)
    (next : ∀ s, I s → ¬ D s → ∃ i, C i s) {s : σ} (h : I s) :
    ∃ is, (∀ before i after, is = before ++ i :: after → C i (runSteps step before s)) ∧
      D (runSteps step is s) := by
  induction size : measure s using Nat.strongRecOn generalizing s with
  | _ n ih =>
      by_cases done : D s
      · exact ⟨[], by simp, done⟩
      · obtain ⟨i, met⟩ := next s h done
        have lowered := lower i s h met
        obtain ⟨is, each, done⟩ := ih _ (by omega) (preserved i s h) rfl
        exact ⟨i :: is, each_cons.mpr ⟨met, each⟩, done⟩
