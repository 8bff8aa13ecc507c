import VermayAgent.Library.Connections

/-! Transactions among others: rely conditions.
Between two statements of a transaction the others move the world by steps of `R n`, where `n` is
the number of statements that the transaction has executed; its own statements run in worlds of `J`
only. `Relies` says what a result then is, and its rules follow the statements. -/
namespace VermayAgent.Library.Txn

variable {ω σ ε α β : Type} {view : ω → σ} {R : Nat → ω → ω → Prop} {J : ω → Prop}
  {Q : ω → α → σ → Prop} {n : Nat} {w w' : ω}

/-- `Q` relates the world in which the last statement ran, the result and the state committed. -/
def Relies (view : ω → σ) (R : Nat → ω → ω → Prop) (J : ω → Prop) (Q : ω → α → σ → Prop) :
    Txn σ ε α → Nat → ω → Prop
  | done (.ok a), n, w => ∀ w', R n w w' → J w' → Q w' a (view w')
  | done (.error _), _, _ => True
  | read next, n, w => ∀ w', R n w w' → J w' → (next (view w')).Relies view R J Q (n+1) w'
  | isolated f, n, w => ∀ w', R n w w' → J w' → ∀ a s', f (view w') = .ok (a,s') → Q w' a s'

/-- The interference composes, and standing still is part of it. -/
structure Interference (R : Nat → ω → ω → Prop) : Prop where
  refl : ∀ n w, R n w w
  trans : ∀ {n w₁ w₂ w₃}, R n w₁ w₂ → R n w₂ w₃ → R n w₁ w₃

namespace Relies

/-- The others moved. -/
theorem later {x : Txn σ ε α} (hR : Interference R) (hx : x.Relies view R J Q n w)
    (h : R n w w') : x.Relies view R J Q n w' := by
  cases x with
  | done r =>
    cases r with
    | ok a => exact fun w₁ h₁ => hx w₁ (hR.trans h h₁)
    | error e => trivial
  | read next => exact fun w₁ h₁ => hx w₁ (hR.trans h h₁)
  | isolated f => exact fun w₁ h₁ => hx w₁ (hR.trans h h₁)

/-- The transaction executed a statement and goes on. -/
theorem rest {x y : Txn σ ε α} (hR : Interference R) (hx : x.Relies view R J Q n w) (hJ : J w)
    (h : x.advance (view w) = .inl y) : y.Relies view R J Q (n+1) w := by
  cases x with
  | done r => cases h
  | read next =>
    cases h
    exact hx w (hR.refl n w) hJ
  | isolated f =>
    simp only [advance] at h
    split at h <;> cases h

theorem result {x : Txn σ ε α} {a : α} {s' : σ} (hR : Interference R)
    (hx : x.Relies view R J Q n w) (hJ : J w) (h : x.advance (view w) = .inr (.ok a,s')) :
    Q w a s' := by
  cases x with
  | done r =>
    cases h
    exact hx w (hR.refl n w) hJ
  | read next => cases h
  | isolated f =>
    simp only [advance] at h
    split at h
    · rename_i hf
      cases h
      exact hx w (hR.refl n w) hJ _ _ hf
    · cases h

theorem pure {a : α} (h : ∀ w', R n w w' → J w' → Q w' a (view w')) :
    (pure a : Txn σ ε α).Relies view R J Q n w := h

theorem fail (e : ε) : (fail e : Txn σ ε α).Relies view R J Q n w := trivial

theorem select {g : σ → β} {f : β → Txn σ ε α}
    (h : ∀ w', R n w w' → J w' → (f (g (view w'))).Relies view R J Q (n+1) w') :
    (select g >>= f).Relies view R J Q n w := h

theorem require {p : Prop} [Decidable p] {e : ε} {f : Unit → Txn σ ε α}
    (h : p → (f ()).Relies view R J Q n w) : (require p e >>= f).Relies view R J Q n w := by
  unfold Txn.require
  split
  · rename_i hp
    exact h hp
  · trivial

theorem orFail {o : Option β} {e : ε} {f : β → Txn σ ε α}
    (h : ∀ b, o = some b → (f b).Relies view R J Q n w) :
    (orFail o e >>= f).Relies view R J Q n w := by
  cases o with
  | some b => exact h b rfl
  | none => trivial

/-- From a write on, all of the transaction runs in one state. -/
theorem write {g : σ → σ} {f : Unit → Txn σ ε α}
    (h : ∀ w', R n w w' → J w' → ∀ a s', (f ()).run (g (view w')) = .ok (a,s') → Q w' a s') :
    (write g >>= f).Relies view R J Q n w := h

end Relies
end VermayAgent.Library.Txn
