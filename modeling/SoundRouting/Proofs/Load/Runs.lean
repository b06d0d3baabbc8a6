import SoundRouting.Config.Load
/-!
Runs of loading.

An action of loading that succeeds leads from one state to another and gives a result. What it takes for
an action to run is told by the actions it is made of.
-/
namespace SoundRouting.Config

/-- Started in `s`, the action succeeds with `a` and ends in `t`. -/
def Runs {α : Type} (action : LoadM α) (s : State) (a : α) (t : State) : Prop :=
  action.run.run s = (.ok a, t)

/-- One action after another: a failure of the first one is that of both. -/
theorem run_bind {α β : Type} (x : LoadM β) (f : β → LoadM α) (s : State) :
    (x >>= f).run.run s = match x.run.run s with
      | (.ok c, u) => (f c).run.run u
      | (.error e, u) => (.error e, u) := by
  rw [ExceptT.run_bind, StateT.run_bind]
  cases x.run.run s with
  | mk result u => cases result <;> rfl

theorem run_get_bind {α : Type} (f : State → LoadM α) (s : State) : (get >>= f).run.run s = (f s).run.run s := rfl

theorem run_modify_bind {α : Type} (g : State → State) (f : PUnit → LoadM α) (s : State) :
    (modify g >>= f).run.run s = (f ⟨⟩).run.run (g s) := rfl

theorem run_atLine {α : Type} (line : Nat) (action : LoadM α) (s : State) :
    (LoadM.atLine line action).run.run s = match action.run.run s with
      | (.ok c, u) => (.ok c, u)
      | (.error e, u) => (.error (e.atLine line), u) := by
  rw [LoadM.atLine, tryCatch, instMonadExceptOfMonadExceptOf]
  change StateT.run (ExceptT.run (ExceptT.tryCatch action _)) s = _
  rw [ExceptT.tryCatch, ExceptT.run_mk, StateT.run_bind, show StateT.run action s = action.run.run s from rfl]
  cases action.run.run s with
  | mk result u => cases result <;> rfl

namespace Runs

variable {α β : Type} {action : LoadM α} {s t u : State} {a b : α}

/-- An action ends in one way. -/
theorem unique (h : Runs action s a t) (h' : Runs action s b u) : b = a ∧ u = t := by
  rw [Runs, h] at h'
  cases h'
  exact ⟨rfl, rfl⟩

theorem not_error {e : Error} (h : Runs action s a t) : action.run.run s ≠ (.error e, u) := by
  rw [h]
  rintro ⟨⟩

theorem not_some {action : LoadM (Option β)} {c : β} (h : Runs action s none t) : ¬ Runs action s (some c) u :=
  fun h' => Option.some_ne_none c (h.unique h').1

theorem pure_iff : Runs (pure b : LoadM α) s a t ↔ b = a ∧ s = t := by
  change ((Except.ok b : Except Error α), s) = (.ok a, t) ↔ _
  rw [Prod.mk.injEq, Except.ok.injEq]

theorem bind_iff {x : LoadM β} {f : β → LoadM α} :
    Runs (x >>= f) s a t ↔ ∃ c u, Runs x s c u ∧ Runs (f c) u a t := by
  simp only [Runs, run_bind]
  cases x.run.run s with
  | mk result u =>
    cases result with
    | error e => exact iff_of_false nofun nofun
    | ok c =>
      constructor
      · exact fun h => ⟨c, u, rfl, h⟩
      · rintro ⟨c', u', he, h⟩
        cases he
        exact h

theorem get_iff {c : State} : Runs (get : LoadM State) s c t ↔ s = c ∧ s = t := by
  change ((Except.ok s : Except Error State), s) = (.ok c, t) ↔ _
  rw [Prod.mk.injEq, Except.ok.injEq]

theorem set_iff {u : State} {c : PUnit} : Runs (set u : LoadM PUnit) s c t ↔ u = t := by
  change ((Except.ok c : Except Error PUnit), u) = (.ok c, t) ↔ _
  simp

theorem modify_iff {f : State → State} {c : PUnit} : Runs (modify f : LoadM PUnit) s c t ↔ f s = t := by
  change ((Except.ok c : Except Error PUnit), f s) = (.ok c, t) ↔ _
  simp

theorem throw_iff {e : Error} : ¬ Runs (throw e : LoadM α) s a t := by
  intro h
  cases h

theorem fault_iff {f : ConfigFault} : ¬ Runs (LoadM.fault f : LoadM α) s a t :=
  throw_iff

theorem need_iff {f : ConfigFault} {o : Option α} : Runs (LoadM.need f o) s a t ↔ o = some a ∧ s = t := by
  cases o with
  | none => exact iff_of_false fault_iff nofun
  | some b => rw [LoadM.need, pure_iff, Option.some.injEq]

theorem ofResult_iff {r : Except Error α} : Runs (LoadM.ofResult r) s a t ↔ r = .ok a ∧ s = t := by
  cases r with
  | error e => exact iff_of_false throw_iff nofun
  | ok b => rw [LoadM.ofResult, pure_iff, Except.ok.injEq]

theorem atLine_iff {line : Nat} {action : LoadM α} :
    Runs (LoadM.atLine line action) s a t ↔ Runs action s a t := by
  simp only [Runs, run_atLine]
  cases action.run.run s with
  | mk result u =>
    cases result with
    | error e => exact iff_of_false nofun nofun
    | ok c => exact Iff.rfl

/-! ### Failures -/

/-- Two actions fail where the first one does, or the second one behind it. -/
theorem error_bind_iff {x : LoadM β} {f : β → LoadM α} {e : Error} : (x >>= f).run.run s = (.error e, t) ↔
    x.run.run s = (.error e, t) ∨ ∃ c u, Runs x s c u ∧ (f c).run.run u = (.error e, t) := by
  simp only [Runs, run_bind]
  cases x.run.run s with
  | mk result u =>
    cases result with
    | error cause =>
      constructor
      · intro h
        cases h
        exact Or.inl rfl
      · rintro (h | ⟨_, _, h, -⟩)
        · cases h
          rfl
        · cases h
    | ok c =>
      constructor
      · exact fun h => Or.inr ⟨c, u, rfl, h⟩
      · rintro (h | ⟨c', u', he, h⟩)
        · cases h
        · cases he
          exact h

theorem error_atLine_iff {line : Nat} {action : LoadM α} {e : Error} :
    (LoadM.atLine line action).run.run s = (.error e, t) ↔
      ∃ cause, action.run.run s = (.error cause, t) ∧ e = cause.atLine line := by
  rw [run_atLine]
  cases action.run.run s with
  | mk result u =>
    cases result with
    | ok c => exact iff_of_false nofun nofun
    | error cause =>
      constructor
      · intro h
        cases h
        exact ⟨cause, rfl, rfl⟩
      · rintro ⟨_, h, rfl⟩
        cases h
        rfl

end Runs

end SoundRouting.Config
