/-!
# Values or errors

Steps in a row succeed if each of them does. What each step keeps, a whole row of them keeps
(`foldlM_keeps`), whether a step that fails gives an error or nothing at all.
-/

namespace PathRules

variable {ε δ α β : Type}

theorem mapError_ok (f : ε → δ) (value : α) :
    (Except.ok value : Except ε α).mapError f = .ok value := rfl

theorem mapError_error (f : ε → δ) (error : ε) :
    (Except.error error : Except ε α).mapError f = .error (f error) := rfl

theorem mapError_eq_ok {f : ε → δ} {outcome : Except ε α} {value : α} :
    outcome.mapError f = .ok value ↔ outcome = .ok value := by
  cases outcome <;> simp [mapError_ok, mapError_error]

theorem exists_ok_of_no_error {outcome : Except ε α} (never : ∀ error, outcome ≠ .error error) :
    ∃ value, outcome = .ok value := by
  cases outcome with
  | ok value => exact ⟨value, rfl⟩
  | error error => exact absurd rfl (never error)

theorem bind_ok {first : Except ε α} {after : α → Except ε β} {value : β}
    (done : (first >>= after) = .ok value) :
    ∃ middle, first = .ok middle ∧ after middle = .ok value := by
  cases first with
  | error error => cases done
  | ok middle => exact ⟨middle, rfl, done⟩

/-! ### Rows of steps -/

instance attachExcept : MonadAttach (Except ε) where
  CanReturn outcome value := outcome = .ok value
  attach
    | .ok value => .ok ⟨value, rfl⟩
    | .error error => .error error

instance lawfulAttachExcept : LawfulMonadAttach (Except ε) where
  map_attach {_ outcome} := by cases outcome <;> rfl
  canReturn_map_imp {_ _ outcome _} given := by
    cases outcome with
    | error error => cases given
    | ok value =>
      obtain rfl := Except.ok.inj given
      exact value.property

/-- What every step keeps, of the state and of the items still to come, holds in the end. -/
theorem foldlM_keeps {m : Type → Type} [Monad m] [LawfulMonad m] [MonadAttach m]
    [LawfulMonadAttach m] {step : β → α → m β} {P : β → List α → Prop}
    (keeps : ∀ state item next items, MonadAttach.CanReturn (step state item) next →
      P state (item :: items) → P next items)
    {items : List α} {start last : β} (holds : P start items)
    (done : MonadAttach.CanReturn (items.foldlM step start) last) : P last [] := by
  induction items generalizing start with
  | nil =>
    obtain rfl := LawfulMonadAttach.eq_of_canReturn_pure done
    exact holds
  | cons item items ih =>
    rw [List.foldlM_cons] at done
    obtain ⟨next, first, done⟩ := LawfulMonadAttach.canReturn_bind_imp' done
    exact ih (keeps start item next items first holds) done

end PathRules
