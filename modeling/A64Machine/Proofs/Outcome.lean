/-!
# Steps that may fail

When a sequence of steps succeeds, and with what; and which failures it may have.
-/

namespace A64Machine

/-- A sequence of two steps succeeds when the first does and the second does on its result. -/
theorem bind_eq_ok {ε α β : Type} {first : Except ε α} {next : α → Except ε β} {result : β} :
    (first >>= next) = .ok result ↔ ∃ value, first = .ok value ∧ next value = .ok result := by
  cases first <;> simp [bind, Except.bind]

/-- A step yields a result when it succeeds with it. -/
theorem toOption_eq_some {ε α : Type} {step : Except ε α} {result : α} :
    step.toOption = some result ↔ step = .ok result := by
  cases step <;> simp [Except.toOption]

/-- The failure of a step, if it fails. -/
def failure? {ε α : Type} : Except ε α → Option ε
  | .error fault => some fault
  | .ok _ => none

/-- A step has a failure when it fails with it. -/
theorem failure?_eq_some {ε α : Type} {step : Except ε α} {fault : ε} :
    failure? step = some fault ↔ step = .error fault := by
  cases step <;> simp [failure?]

/-- A step whose failures are renamed succeeds when the step does. -/
theorem mapError_eq_ok {ε ε' α : Type} {rename : ε → ε'} {step : Except ε α} {result : α} :
    step.mapError rename = .ok result ↔ step = .ok result := by
  cases step with
  | error fault => constructor <;> intro same <;> cases same
  | ok value => constructor <;> intro same <;> cases same <;> rfl

/-- A step whose result is changed succeeds when the step does. -/
theorem map_eq_ok {ε α β : Type} {change : α → β} {step : Except ε α} {result : β} :
    step.map change = .ok result ↔ ∃ value, step = .ok value ∧ change value = result := by
  cases step <;> simp [Except.map]

/-- A step whose result is changed fails as the step does. -/
theorem map_eq_error {ε α β : Type} {change : α → β} {step : Except ε α} {fault : ε} :
    step.map change = .error fault ↔ step = .error fault := by
  cases step <;> simp [Except.map]

/-- What a successful step goes on to is what follows it. -/
theorem ok_bind {ε α β : Type} {step : Except ε α} {value : α} {next : α → Except ε β}
    (succeeded : step = .ok value) : (step >>= next) = next value := by
  rw [succeeded]
  rfl

/-- What every step over a list preserves holds in the end. -/
theorem foldlM_preserves {ε α β : Type} {holds : β → Prop} {step : β → α → Except ε β}
    {list : List α} {start result : β}
    (each : ∀ item ∈ list, ∀ value after, holds value → step value item = .ok after → holds after)
    (first : holds start) (done : list.foldlM step start = .ok result) : holds result := by
  induction list generalizing start with
  | nil => exact Except.ok.inj done ▸ first
  | cons item rest ih =>
    obtain ⟨here, later⟩ := List.forall_mem_cons.mp each
    rw [List.foldlM_cons] at done
    obtain ⟨middle, stepped, done⟩ := bind_eq_ok.mp done
    exact ih later (here start middle first stepped) done

/-! ### Failures -/

/-- A step has only failures that are allowed. -/
def FailsOnly {ε α : Type} (allowed : ε → Prop) (step : Except ε α) : Prop :=
  ∀ fault, step = .error fault → allowed fault

section FailsOnly

variable {ε ε' α β : Type} {allowed : ε → Prop} {first : Except ε α} {next : α → Except ε β}

@[simp] theorem failsOnly_ok {value : α} : FailsOnly allowed (.ok value) :=
  fun _ same => nomatch same

@[simp] theorem failsOnly_pure {value : α} : FailsOnly allowed (pure value) :=
  fun _ same => nomatch same

@[simp] theorem failsOnly_error {fault : ε} :
    FailsOnly allowed (.error fault : Except ε α) ↔ allowed fault :=
  ⟨fun only => only fault rfl, fun known _ same => Except.error.inj same ▸ known⟩

@[simp] theorem failsOnly_throw {fault : ε} :
    FailsOnly allowed (throw fault : Except ε α) ↔ allowed fault :=
  failsOnly_error

/-- A sequence of two steps fails as the first does, or as the second does on its result. -/
@[simp] theorem failsOnly_bind :
    FailsOnly allowed (first >>= next) ↔
      FailsOnly allowed first ∧ ∀ value, first = .ok value → FailsOnly allowed (next value) := by
  cases first with
  | error fault =>
    constructor
    · intro only
      exact ⟨failsOnly_error.mpr (only fault rfl), fun _ same => nomatch same⟩
    · rintro ⟨only, _⟩ other same
      exact Except.error.inj same ▸ failsOnly_error.mp only
  | ok value =>
    constructor
    · intro only
      exact ⟨failsOnly_ok, fun _ same => Except.ok.inj same ▸ only⟩
    · rintro ⟨_, only⟩
      exact only value rfl

/-- A step whose failures are renamed fails as the step does. -/
@[simp] theorem failsOnly_mapError {rename : ε' → ε} {step : Except ε' α} :
    FailsOnly allowed (step.mapError rename) ↔
      FailsOnly (fun fault => allowed (rename fault)) step := by
  cases step with
  | error fault =>
    rw [failsOnly_error]
    exact failsOnly_error
  | ok value => exact iff_of_true failsOnly_ok failsOnly_ok

/-- A step whose result is changed fails as the step does. -/
@[simp] theorem failsOnly_map {change : α → β} :
    FailsOnly allowed (change <$> first) ↔ FailsOnly allowed first := by
  cases first <;> simp [Functor.map, Except.map]

/-- Steps that are repeated over a list fail only as one of them may. -/
theorem failsOnly_foldlM {step : β → α → Except ε β} {list : List α} {start : β}
    (each : ∀ item ∈ list, ∀ value, FailsOnly allowed (step value item)) :
    FailsOnly allowed (list.foldlM step start) := by
  induction list generalizing start with
  | nil => exact failsOnly_pure
  | cons item rest ih =>
    obtain ⟨here, later⟩ := List.forall_mem_cons.mp each
    rw [List.foldlM_cons, failsOnly_bind]
    exact ⟨here start, fun _ _ => ih later⟩

end FailsOnly

end A64Machine
