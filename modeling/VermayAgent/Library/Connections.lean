import VermayAgent.Library.Txn

/-! Transactions of several connections on one state.
A statement before the first write reads the state that is committed when it runs, so the reads
of one transaction can see different states; the write part runs in one state. `advance` is one
statement, and `Ensures` speaks about every run whose reads see whatever states they see. -/
namespace VermayAgent.Library.Txn

variable {σ ε α β γ : Type} {s s' : σ}

instance : LawfulMonad (Txn σ ε) := by
  refine LawfulMonad.mk' (Txn σ ε) ?_ ?_ ?_
  · intro α x
    change x.bind (fun a => pure a) = x
    induction x with
    | done r => cases r <;> rfl
    | read next ih => exact congrArg read (funext ih)
    | isolated g =>
      refine congrArg isolated (funext fun s => ?_)
      cases g s <;> rfl
  · intro α β a f
    rfl
  · intro α β γ x f g
    change (x.bind f).bind g = x.bind fun a => (f a).bind g
    induction x with
    | done r => cases r <;> rfl
    | read next ih => exact congrArg read (funext ih)
    | isolated h =>
      refine congrArg isolated (funext fun s => ?_)
      cases hs : h s with
      | error e => simp only [hs]
      | ok r =>
        simp only [hs]
        exact (run_bind (f r.1) g).symm

/-- One statement in the committed state: what is left of the transaction, or its result and the
state that it commits. -/
def advance : Txn σ ε α → σ → Txn σ ε α ⊕ Except ε α × σ
  | done r, s => .inr (r,s)
  | read next, s => .inl (next s)
  | isolated f, s =>
    match f s with
    | .ok (a,s') => .inr (.ok a,s')
    | .error e => .inr (.error e,s)

/-- The write part is next. -/
def writes : Txn σ ε α → Bool
  | isolated _ => true
  | _ => false

/-- Statements that nothing comes between make up one run in one state. -/
theorem advance_rest {x y : Txn σ ε α} (h : x.advance s = .inl y) : x.run s = y.run s := by
  cases x with
  | done r => cases h
  | read next =>
    cases h
    rfl
  | isolated f =>
    simp only [advance] at h
    split at h <;> cases h

theorem advance_ok {x : Txn σ ε α} {a : α} (h : x.advance s = .inr (.ok a,s')) :
    x.run s = .ok (a,s') := by
  cases x with
  | done r =>
    cases h
    rfl
  | read next => cases h
  | isolated f =>
    simp only [advance] at h
    split at h
    · rename_i hf
      cases h
      exact hf
    · cases h

theorem advance_error {x : Txn σ ε α} {e : ε} (h : x.advance s = .inr (.error e,s')) :
    x.run s = .error e ∧ s' = s := by
  cases x with
  | done r =>
    cases h
    exact ⟨rfl,rfl⟩
  | read next => cases h
  | isolated f =>
    simp only [advance] at h
    split at h
    · cases h
    · rename_i hf
      cases h
      exact ⟨hf,rfl⟩

/-- `Q` relates the state of the last read, the state that the write part runs in, the result and
the state that is committed, whatever the states between two statements are. -/
def Ensures (Q : σ → σ → α → σ → Prop) : Txn σ ε α → σ → Prop
  | done (.ok a), s₀ => Q s₀ s₀ a s₀
  | done (.error _), _ => True
  | read next, _ => ∀ s, (next s).Ensures Q s
  | isolated f, s₀ => ∀ s a s', f s = .ok (a,s') → Q s₀ s a s'

namespace Ensures

variable {Q : σ → σ → α → σ → Prop} {s₀ : σ} {x : Txn σ ε α}

/-- What a transaction ensures, its remaining statements ensure from the state just read. -/
theorem rest {y : Txn σ ε α} (h : x.Ensures Q s₀) (hy : x.advance s = .inl y) :
    y.Ensures Q s := by
  cases x with
  | done r => cases hy
  | read next =>
    cases hy
    exact h s
  | isolated f =>
    simp only [advance] at hy
    split at hy <;> cases hy

/-- A result comes from the write part, or without one from the state last read. -/
theorem result {a : α} (h : x.Ensures Q s₀) (ha : x.advance s = .inr (.ok a,s')) :
    (x.writes = true ∧ Q s₀ s a s') ∨ (s' = s ∧ Q s₀ s₀ a s₀) := by
  cases x with
  | done r =>
    cases ha
    exact .inr ⟨rfl,h⟩
  | read next => cases ha
  | isolated f =>
    simp only [advance] at ha
    split at ha
    · rename_i hf
      cases ha
      exact .inl ⟨rfl,h s a s' hf⟩
    · cases ha

theorem pure {a : α} (h : Q s₀ s₀ a s₀) : (pure a : Txn σ ε α).Ensures Q s₀ := h

/-- From a write on, all of the transaction runs in one state. -/
theorem statement {y : Txn σ ε β} {f : β → Txn σ ε α}
    (h : ∀ s a s', (y >>= f).run s = .ok (a,s') → Q s₀ s a s') :
    (statement y >>= f).Ensures Q s₀ := by
  intro s a s' hrun
  refine h s a s' ?_
  rw [run_bind]
  exact hrun

theorem select {g : σ → β} {f : β → Txn σ ε α} (h : ∀ s, (f (g s)).Ensures Q s) :
    (select g >>= f).Ensures Q s₀ := h

theorem require {p : Prop} [Decidable p] {e : ε} {f : Unit → Txn σ ε α}
    (h : p → (f ()).Ensures Q s₀) : (require p e >>= f).Ensures Q s₀ := by
  unfold Txn.require
  split
  · rename_i hp
    exact h hp
  · trivial

theorem orFail {o : Option β} {e : ε} {f : β → Txn σ ε α}
    (h : ∀ b, o = some b → (f b).Ensures Q s₀) : (orFail o e >>= f).Ensures Q s₀ := by
  cases o with
  | some b => exact h b rfl
  | none => trivial

theorem ofExcept {r : Except ε β} {f : β → Txn σ ε α}
    (h : ∀ b, r = .ok b → (f b).Ensures Q s₀) : (ofExcept r >>= f).Ensures Q s₀ := by
  cases r with
  | ok b => exact h b rfl
  | error e => trivial

end Ensures
end VermayAgent.Library.Txn
