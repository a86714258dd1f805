set_option autoImplicit false

/-! Postconditions of programs that may fail and keep their state when they do.
`Ends x s Q E` says that `x`, started in `s`, returns in `Q` or fails in `E`. -/

namespace Effect

variable {ε σ α β : Type}

def Ends (x : EStateM ε σ α) (s : σ) (Q : α → σ → Prop) (E : ε → σ → Prop) : Prop :=
  match x.run s with
  | .ok a s' => Q a s'
  | .error e s' => E e s'

variable {s : σ} {Q : α → σ → Prop} {E : ε → σ → Prop}

@[simp] theorem ends_pure (a : α) : Ends (pure a : EStateM ε σ α) s Q E ↔ Q a s := Iff.rfl

@[simp] theorem ends_throw (e : ε) : Ends (throw e : EStateM ε σ α) s Q E ↔ E e s := Iff.rfl

@[simp] theorem ends_get {Q : σ → σ → Prop} :
    Ends (get : EStateM ε σ σ) s Q E ↔ Q s s := Iff.rfl

/-- Sequencing: the first program must end where the second one may start. -/
@[simp] theorem ends_bind (x : EStateM ε σ α) (f : α → EStateM ε σ β)
    {Q : β → σ → Prop} :
    Ends (x >>= f) s Q E ↔ Ends x s (fun a s' => Ends (f a) s' Q E) E := by
  unfold Ends
  rw [EStateM.run_bind]
  cases x.run s <;> rfl

theorem run_tryCatch_ok {body : EStateM ε σ α} {handler : ε → EStateM ε σ α} {a : α} {s' : σ}
    (ends : body.run s = .ok a s') : (tryCatch body handler).run s = .ok a s' := by
  have value : body s = .ok a s' := ends
  change EStateM.tryCatch body handler s = _
  delta EStateM.tryCatch
  rw [value]

/-- A handler sees the state in which the body failed. -/
theorem run_tryCatch_error {body : EStateM ε σ α} {handler : ε → EStateM ε σ α} {e : ε} {s' : σ}
    (fails : body.run s = .error e s') :
    (tryCatch body handler).run s = (handler e).run s' := by
  have value : body s = .error e s' := fails
  change EStateM.tryCatch body handler s = _
  delta EStateM.tryCatch
  rw [value]
  rfl

@[simp] theorem ends_tryCatch (body : EStateM ε σ α) (handler : ε → EStateM ε σ α) :
    Ends (tryCatch body handler) s Q E ↔
      Ends body s Q (fun e s' => Ends (handler e) s' Q E) := by
  unfold Ends
  cases run : body.run s with
  | ok a s' => rw [run_tryCatch_ok run]
  | error e s' => rw [run_tryCatch_error run]

theorem Ends.mono {x : EStateM ε σ α} {Q' : α → σ → Prop} {E' : ε → σ → Prop}
    (ends : Ends x s Q E) (returns : ∀ a s', Q a s' → Q' a s')
    (fails : ∀ e s', E e s' → E' e s') : Ends x s Q' E' := by
  unfold Ends at *
  cases h : x.run s with
  | ok a s' => rw [h] at ends; exact returns a s' ends
  | error e s' => rw [h] at ends; exact fails e s' ends

theorem Ends.and {x : EStateM ε σ α} {Q' : α → σ → Prop} {E' : ε → σ → Prop}
    (first : Ends x s Q E) (second : Ends x s Q' E') :
    Ends x s (fun a s' => Q a s' ∧ Q' a s') (fun e s' => E e s' ∧ E' e s') := by
  unfold Ends at *
  cases h : x.run s with
  | ok a s' => rw [h] at first second; exact ⟨first, second⟩
  | error e s' => rw [h] at first second; exact ⟨first, second⟩

theorem Ends.returned {x : EStateM ε σ α} {a : α} {s' : σ} (ends : Ends x s Q E)
    (run : x.run s = .ok a s') : Q a s' := by
  unfold Ends at ends
  rwa [run] at ends

theorem Ends.failed {x : EStateM ε σ α} {e : ε} {s' : σ} (ends : Ends x s Q E)
    (run : x.run s = .error e s') : E e s' := by
  unfold Ends at ends
  rwa [run] at ends

/-- The state a run leaves behind, whether it returned or failed. -/
def endState (result : EStateM.Result ε σ α) : σ :=
  match result with
  | .ok _ s => s
  | .error _ s => s

@[simp] theorem endState_ok (a : α) (s : σ) : endState (.ok a s : EStateM.Result ε σ α) = s := rfl

@[simp] theorem endState_error (e : ε) (s : σ) :
    endState (.error e s : EStateM.Result ε σ α) = s := rfl

theorem ends_of_endState {x : EStateM ε σ α} {Inv : σ → Prop} (kept : Inv (endState (x.run s))) :
    Ends x s (fun _ s' => Inv s') (fun _ s' => Inv s') := by
  unfold Ends
  cases h : x.run s <;> simpa [h] using kept

/-- Histories: an invariant kept by every command, whether it returns or fails,
holds after every finite list of commands run one after the other. -/
def runAll {κ : Type} (command : κ → EStateM ε σ α) : List κ → σ → σ
  | [], s => s
  | k :: rest, s => runAll command rest (endState ((command k).run s))

theorem runAll_concat {κ : Type} (command : κ → EStateM ε σ α) (history : List κ) (k : κ) (s : σ) :
    runAll command (history ++ [k]) s = endState ((command k).run (runAll command history s)) := by
  induction history generalizing s with
  | nil => rfl
  | cons first rest ih => exact ih _

theorem runAll_invariant {κ : Type} {command : κ → EStateM ε σ α} {Inv : σ → Prop}
    (step : ∀ k s, Inv s → Ends (command k) s (fun _ s' => Inv s') (fun _ s' => Inv s'))
    (history : List κ) {s : σ} (start : Inv s) : Inv (runAll command history s) := by
  induction history generalizing s with
  | nil => exact start
  | cons k rest ih =>
    apply ih
    have ended := step k s start
    cases h : (command k).run s with
    | ok a s' => exact ended.returned h
    | error e s' => exact ended.failed h

/-- Every error that `x` ends in, from any state, is one of `P`. -/
def FailsIn (P : ε → Prop) (x : EStateM ε σ α) : Prop :=
  ∀ s, Ends x s (fun _ _ => True) (fun e _ => P e)

section FailsIn

variable {P : ε → Prop}

theorem failsIn_pure (a : α) : FailsIn P (pure a : EStateM ε σ α) := fun _ => trivial

theorem failsIn_throw {e : ε} (holds : P e) : FailsIn P (throw e : EStateM ε σ α) := fun _ => holds

theorem failsIn_get : FailsIn P (get : EStateM ε σ σ) := fun _ => trivial

theorem FailsIn.bind {x : EStateM ε σ α} {f : α → EStateM ε σ β} (first : FailsIn P x)
    (second : ∀ a, FailsIn P (f a)) : FailsIn P (x >>= f) := by
  intro s
  rw [ends_bind]
  exact (first s).mono (fun a s' _ => second a s') fun _ _ holds => holds

end FailsIn

/-! Parts of the state that a program never looks at. -/

/-- The same value or the same error, in related states. -/
inductive SameEnd (R : σ → σ → Prop) :
    EStateM.Result ε σ α → EStateM.Result ε σ α → Prop
  | ok (a : α) {s s' : σ} (related : R s s') : SameEnd R (.ok a s) (.ok a s')
  | error (e : ε) {s s' : σ} (related : R s s') : SameEnd R (.error e s) (.error e s')

/-- `x` does the same in related states. -/
def Respects (R : σ → σ → Prop) (x : EStateM ε σ α) : Prop :=
  ∀ s s', R s s' → SameEnd R (x.run s) (x.run s')

section Respects

variable {R : σ → σ → Prop}

theorem respects_pure (a : α) : Respects R (pure a : EStateM ε σ α) := fun _ _ related => .ok a related

theorem respects_throw (e : ε) : Respects R (throw e : EStateM ε σ α) :=
  fun _ _ related => .error e related

theorem Respects.bind {x : EStateM ε σ α} {f : α → EStateM ε σ β} (first : Respects R x)
    (second : ∀ a, Respects R (f a)) : Respects R (x >>= f) := by
  intro s s' related
  have ends := first s s' related
  rw [EStateM.run_bind, EStateM.run_bind]
  generalize x.run s = one at ends
  generalize x.run s' = two at ends
  cases ends with
  | ok a related => exact second a _ _ related
  | error e related => exact .error e related

/-- What is done with the state may only depend on what related states share. -/
theorem respects_get_bind {f : σ → EStateM ε σ β} (same : ∀ s s', R s s' → f s = f s')
    (after : ∀ s, Respects R (f s)) : Respects R (get >>= f) := by
  intro s s' related
  rw [EStateM.run_bind, EStateM.run_bind, EStateM.run_get, EStateM.run_get]
  dsimp only
  rw [same s s' related]
  exact after s' s s' related

theorem Respects.ok {x : EStateM ε σ α} (respects : Respects R x) {s s' t : σ} {a : α}
    (related : R s s') (run : x.run s = .ok a t) : ∃ t', x.run s' = .ok a t' ∧ R t t' := by
  have ends := respects s s' related
  rw [run] at ends
  generalize x.run s' = result at ends
  cases ends with
  | ok _ related => exact ⟨_, rfl, related⟩

end Respects

/-- Every error of `x` is one of `P`. -/
def Raises (P : ε → Prop) (x : Except ε α) : Prop := ∀ e, x = .error e → P e

section Raises

variable {P : ε → Prop}

@[simp] theorem raises_ok (a : α) : Raises P (.ok a : Except ε α) := nofun

@[simp] theorem raises_pure (a : α) : Raises P (pure a : Except ε α) := nofun

@[simp] theorem raises_error (e : ε) : Raises P (.error e : Except ε α) ↔ P e :=
  ⟨fun raises => raises e rfl, fun holds _ same => by cases same; exact holds⟩

@[simp] theorem raises_throw (e : ε) : Raises P (throw e : Except ε α) ↔ P e := raises_error e

theorem Raises.bind {x : Except ε α} {f : α → Except ε β} (first : Raises P x)
    (second : ∀ a, Raises P (f a)) : Raises P (x >>= f) := by
  cases x with
  | ok a => exact second a
  | error e => exact (raises_error e).mpr (first e rfl)

theorem raises_mapError {δ : Type} {f : δ → ε} (image : ∀ e, P (f e)) (x : Except δ α) :
    Raises P (x.mapError f) := by
  cases x with
  | ok a => exact raises_ok a
  | error e => exact (raises_error _).mpr (image e)

end Raises

/-! ### Repeated calls -/

/-- What a run returned or failed with, without the state. -/
def outcome (result : EStateM.Result ε σ α) : Except ε α :=
  match result with
  | .ok a _ => .ok a
  | .error e _ => .error e

/-- The outcomes of `n` calls, each in the state that the one before left. -/
def outcomes (x : EStateM ε σ α) : Nat → σ → List (Except ε α)
  | 0, _ => []
  | n + 1, s => outcome (x.run s) :: outcomes x n (endState (x.run s))

/-- The state that `n` calls leave. -/
def stateAfter (x : EStateM ε σ α) : Nat → σ → σ
  | 0, s => s
  | n + 1, s => stateAfter x n (endState (x.run s))

section Calls

variable {x : EStateM ε σ α} {s s' : σ}

theorem outcomes_congr (same : x.run s = x.run s') (n : Nat) : outcomes x n s = outcomes x n s' := by
  cases n with
  | zero => rfl
  | succ n => rw [outcomes, outcomes, same]

theorem stateAfter_congr (same : x.run s = x.run s') (n : Nat) :
    stateAfter x (n + 1) s = stateAfter x (n + 1) s' := by
  rw [stateAfter, stateAfter, same]

/-- An outcome that is left behind wherever it came from comes for ever. -/
theorem outcomes_forever {Inv : σ → Prop} {last : Except ε α}
    (step : ∀ s, Inv s → outcome (x.run s) = last ∧ Inv (endState (x.run s))) (start : Inv s)
    (n : Nat) : outcomes x n s = List.replicate n last := by
  induction n generalizing s with
  | zero => rfl
  | succ n ih =>
    obtain ⟨isLast, kept⟩ := step s start
    rw [outcomes, isLast, ih kept, List.replicate_succ]

end Calls

/-- A source hands on the values of a list, call by call, and then fails. -/
inductive Delivers (x : EStateM ε σ α) (e : ε) : σ → List α → Prop
  | stop {s s' : σ} (run : x.run s = .error e s') : Delivers x e s []
  | value {s s' : σ} {a : α} {rest : List α} (run : x.run s = .ok a s')
      (later : Delivers x e s' rest) : Delivers x e s (a :: rest)

theorem Delivers.congr {x : EStateM ε σ α} {e : ε} {s s' : σ} {as : List α}
    (same : x.run s = x.run s') (delivers : Delivers x e s' as) : Delivers x e s as := by
  cases delivers with
  | stop run => exact .stop (same.trans run)
  | value run later => exact .value (same.trans run) later

theorem Delivers.of_error {x : EStateM ε σ α} {e : ε} {s : σ}
    (fails : outcome (x.run s) = .error e) : Delivers x e s [] := by
  cases run : x.run s with
  | ok a s' =>
    rw [run] at fails
    cases fails
  | error e' s' =>
    rw [run] at fails
    cases fails
    exact .stop run

theorem Delivers.of_ok {x : EStateM ε σ α} {e : ε} {s : σ} {a : α} {rest : List α}
    (returns : outcome (x.run s) = .ok a) (later : Delivers x e (endState (x.run s)) rest) :
    Delivers x e s (a :: rest) := by
  cases run : x.run s with
  | ok a' s' =>
    rw [run] at returns later
    cases returns
    exact .value run later
  | error e' s' =>
    rw [run] at returns
    cases returns

theorem Delivers.unique {x : EStateM ε σ α} {e : ε} {first second : List α}
    (delivers : Delivers x e s first) (others : Delivers x e s second) : first = second := by
  induction delivers generalizing second with
  | stop run =>
    cases others with
    | stop _ => rfl
    | value run' _ => cases run.symm.trans run'
  | value run later ih =>
    cases others with
    | stop run' => cases run.symm.trans run'
    | value run' later' =>
      cases run.symm.trans run'
      rw [ih later']

/-- A source hands on the values of a list, call by call, and is then in a later state. -/
inductive Supplies (x : EStateM ε σ α) : σ → List α → σ → Prop
  | nil (s : σ) : Supplies x s [] s
  | cons {s s' s'' : σ} {a : α} {rest : List α} (run : x.run s = .ok a s')
      (later : Supplies x s' rest s'') : Supplies x s (a :: rest) s''

/-- A source that never fails. -/
def Endless (x : EStateM ε σ α) : Prop := ∀ s, ∃ a s', x.run s = .ok a s'

theorem Endless.supplies {x : EStateM ε σ α} (endless : Endless x) (n : Nat) (s : σ) :
    ∃ as s', as.length = n ∧ Supplies x s as s' := by
  induction n generalizing s with
  | zero => exact ⟨[], s, rfl, .nil s⟩
  | succ n ih =>
    obtain ⟨a, next, run⟩ := endless s
    obtain ⟨as, s', length, supplies⟩ := ih next
    exact ⟨a :: as, s', congrArg (· + 1) length, .cons run supplies⟩

/-- What one call keeps and returns, every one does. -/
theorem Supplies.holds {x : EStateM ε σ α} {Inv : σ → Prop} {P : α → Prop} {s s' : σ} {as : List α}
    (step : ∀ s a s', Inv s → x.run s = .ok a s' → Inv s' ∧ P a) (supplies : Supplies x s as s')
    (start : Inv s) : Inv s' ∧ ∀ a ∈ as, P a := by
  induction supplies with
  | nil s => exact ⟨start, fun a listed => absurd listed List.not_mem_nil⟩
  | cons run _ ih =>
    obtain ⟨kept, returned⟩ := step _ _ _ start run
    obtain ⟨final, others⟩ := ih kept
    exact ⟨final, List.forall_mem_cons.mpr ⟨returned, others⟩⟩

end Effect
