import Mathlib.Logic.Function.Basic
import Mathlib.Data.List.Basic
import Mathlib.Logic.Relation

/-! Transactions: state transformers that may abort.
The statements before the first write are reads of the state; what follows them is one state
transformer. An aborted transaction leaves no state behind, so `commit` puts the old state back;
the rules below read a successful run step by step and carry what a step keeps. -/
namespace VermayAgent.Library

/-- A property that each step keeps holds wherever the steps lead. -/
theorem reflTransGen_invariant {σ : Type} {W : σ → σ → Prop} {I : σ → Prop}
    (hstep : ∀ s s', W s s' → I s → I s') {s s' : σ} (h : Relation.ReflTransGen W s s')
    (hs : I s) : I s' := by
  induction h with
  | refl => exact hs
  | tail _ hw ih => exact hstep _ _ hw ih

/-- A transaction over states `σ` that aborts with an `ε` or returns an `α`. -/
inductive Txn (σ ε α : Type) : Type where
  | done (result : Except ε α)
  | read (next : σ → Txn σ ε α)
  | isolated (f : σ → Except ε (α × σ))

namespace Txn

variable {σ ε α β γ : Type}

/-- Run the transaction as a whole in one state. -/
def run : Txn σ ε α → σ → Except ε (α × σ)
  | done (.ok a), s => .ok (a,s)
  | done (.error e), _ => .error e
  | read next, s => (next s).run s
  | isolated f, s => f s

protected def bind : Txn σ ε α → (α → Txn σ ε β) → Txn σ ε β
  | done (.ok a), f => f a
  | done (.error e), _ => done (.error e)
  | read next, f => read fun s => (next s).bind f
  | isolated g, f => isolated fun s =>
    match g s with
    | .ok (a,s') => (f a).run s'
    | .error e => .error e

instance : Monad (Txn σ ε) where
  pure a := done (.ok a)
  bind := Txn.bind

def fail (e : ε) : Txn σ ε α := done (.error e)

/-- Read a part of the state. -/
def select (f : σ → α) : Txn σ ε α := read fun s => pure (f s)

def write (f : σ → σ) : Txn σ ε Unit := isolated fun s => .ok ((),f s)

/-- Replace the state by one that may not exist. -/
def write? (f : σ → Option σ) (e : ε) : Txn σ ε Unit := isolated fun s =>
  match f s with
  | some s' => .ok ((),s')
  | none => .error e

/-- One writing statement: what it reads, it reads in the state that it writes to. -/
def statement (x : Txn σ ε α) : Txn σ ε α := isolated x.run

def require (p : Prop) [Decidable p] (e : ε) : Txn σ ε Unit := if p then pure () else fail e

def orFail (o : Option α) (e : ε) : Txn σ ε α :=
  match o with
  | some a => pure a
  | none => fail e

/-- A value computed without the state, or the error that computing it raised. -/
def ofExcept (x : Except ε α) : Txn σ ε α := done x

/-- The state left behind: rolled back on abort. -/
def commit (x : Txn σ ε α) (s : σ) : σ :=
  match x.run s with
  | .ok (_,s') => s'
  | .error _ => s

section Run

variable {s s' : σ} {a : α} {b : β}

@[simp] theorem run_pure : (pure a : Txn σ ε α).run s = .ok (a,s) := rfl

@[simp] theorem run_fail (e : ε) : (fail e : Txn σ ε α).run s = .error e := rfl

@[simp] theorem run_select (f : σ → α) : (select f : Txn σ ε α).run s = .ok (f s,s) := rfl

@[simp] theorem run_statement (x : Txn σ ε α) : (statement x).run s = x.run s := rfl

@[simp] theorem run_write (f : σ → σ) : (write f : Txn σ ε Unit).run s = .ok ((),f s) := rfl

theorem run_bind (x : Txn σ ε α) (f : α → Txn σ ε β) :
    (x >>= f).run s =
      match x.run s with
      | .ok (a,s') => (f a).run s'
      | .error e => .error e := by
  change (x.bind f).run s = _
  induction x with
  | done r => cases r <;> rfl
  | read next ih => exact ih s
  | isolated g => rfl

/-- A sequence succeeds exactly when each part does, one after the other. -/
@[simp] theorem bind_ok (x : Txn σ ε α) (f : α → Txn σ ε β) :
    (x >>= f).run s = .ok (b,s') ↔
      ∃ a s₁, x.run s = .ok (a,s₁) ∧ (f a).run s₁ = .ok (b,s') := by
  rw [run_bind]
  cases hx : x.run s with
  | error e => simp
  | ok r =>
    rcases r with ⟨a,s₁⟩
    simp

@[simp] theorem pure_ok {a' : α} : (pure a : Txn σ ε α).run s = .ok (a',s') ↔ a = a' ∧ s = s' := by
  simp

@[simp] theorem map_ok (f : α → β) (x : Txn σ ε α) :
    (f <$> x).run s = .ok (b,s') ↔ ∃ a, x.run s = .ok (a,s') ∧ f a = b := by
  change (x >>= fun a => pure (f a)).run s = _ ↔ _
  simp only [bind_ok,pure_ok]
  constructor
  · rintro ⟨a,s₁,hx,rfl,rfl⟩
    exact ⟨a,hx,rfl⟩
  · rintro ⟨a,hx,rfl⟩
    exact ⟨a,s',hx,rfl,rfl⟩

@[simp] theorem write?_ok (f : σ → Option σ) (e : ε) {u : Unit} :
    (write? f e).run s = .ok (u,s') ↔ f s = some s' := by
  simp only [write?,run]
  cases f s <;> simp

@[simp] theorem require_ok (p : Prop) [Decidable p] (e : ε) {u : Unit} :
    (require p e).run s = .ok (u,s') ↔ p ∧ s = s' := by
  unfold require
  split <;> simp [*]

@[simp] theorem orFail_ok (o : Option α) (e : ε) :
    (orFail o e).run s = .ok (a,s') ↔ o = some a ∧ s = s' := by
  cases o <;> simp [orFail]

@[simp] theorem ofExcept_ok (x : Except ε α) :
    (ofExcept x).run s = .ok (a,s') ↔ x = .ok a ∧ s = s' := by
  cases x <;> simp [ofExcept,run]

theorem run_require_of {p : Prop} [Decidable p] (hp : p) (e : ε) :
    (require p e).run s = .ok ((),s) := by simp [hp]

/-- Without its condition a transaction goes no further. -/
theorem run_require_bind (p : Prop) [Decidable p] (e : ε) (x : Unit → Txn σ ε α) :
    (require p e >>= x).run s = if p then (x ()).run s else .error e := by
  rw [run_bind,require]
  by_cases hp : p
  · rw [if_pos hp,if_pos hp]
    rfl
  · rw [if_neg hp,if_neg hp]
    rfl

theorem run_orFail_of {o : Option α} (ho : o = some a) (e : ε) :
    (orFail o e).run s = .ok (a,s) := by simp [ho]

theorem run_bind_of {x : Txn σ ε α} {f : α → Txn σ ε β} (hx : x.run s = .ok (a,s')) :
    (x >>= f).run s = (f a).run s' := by
  rw [run_bind,hx]

@[simp] theorem ite_run (p : Prop) [Decidable p] (x y : Txn σ ε α) :
    (if p then x else y).run s = if p then x.run s else y.run s := by
  split <;> rfl

theorem commit_ok {x : Txn σ ε α} (h : x.run s = .ok (a,s')) : x.commit s = s' := by
  simp [commit,h]

theorem commit_error {x : Txn σ ε α} {e : ε} (h : x.run s = .error e) : x.commit s = s := by
  simp [commit,h]

/-- What a committed transaction leaves is the old state or that of a successful run. -/
theorem commit_cases (x : Txn σ ε α) (s : σ) :
    x.commit s = s ∨ ∃ a, x.run s = .ok (a,x.commit s) := by
  cases h : x.run s with
  | error e => exact .inl (commit_error h)
  | ok r =>
    rcases r with ⟨a,s'⟩
    exact .inr ⟨a,by rw [commit_ok h]⟩

theorem commit_map (f : α → β) (x : Txn σ ε α) (s : σ) : (f <$> x).commit s = x.commit s := by
  change (x >>= fun a => pure (f a)).commit s = x.commit s
  unfold commit
  rw [run_bind]
  cases x.run s with
  | error e => rfl
  | ok r => rfl

end Run

/-- `x` keeps the value of the observation `v` whenever it succeeds. -/
def Keeps (v : σ → γ) (x : Txn σ ε α) : Prop :=
  ∀ s a s', x.run s = .ok (a,s') → v s' = v s

namespace Keeps

variable {v : σ → γ}

theorem pure (a : α) : Keeps v (pure a : Txn σ ε α) := by
  rintro s a s' h
  simp only [pure_ok] at h
  rw [h.2]

theorem fail (e : ε) : Keeps v (fail e : Txn σ ε α) := by
  intro s a s' h
  cases h

theorem select (f : σ → α) : Keeps v (select f : Txn σ ε α) := by
  intro s a s' h
  cases h
  rfl

theorem write {f : σ → σ} (hf : ∀ s, v (f s) = v s) : Keeps v (write f : Txn σ ε Unit) := by
  intro s a s' h
  cases h
  exact hf s

theorem write? {f : σ → Option σ} {e : ε} (hf : ∀ s s', f s = some s' → v s' = v s) :
    Keeps v (write? f e) := by
  intro s a s' h
  exact hf s s' (by simpa using h)

theorem require (p : Prop) [Decidable p] (e : ε) : Keeps v (require p e : Txn σ ε Unit) := by
  intro s a s' h
  rw [((require_ok p e).mp h).2]

theorem orFail (o : Option α) (e : ε) : Keeps v (orFail o e : Txn σ ε α) := by
  intro s a s' h
  rw [((orFail_ok o e).mp h).2]

theorem ofExcept (x : Except ε α) : Keeps v (ofExcept x : Txn σ ε α) := by
  intro s a s' h
  rw [((ofExcept_ok x).mp h).2]

theorem statement {x : Txn σ ε α} (hx : Keeps v x) : Keeps v (statement x) := hx

theorem bind {x : Txn σ ε α} {f : α → Txn σ ε β} (hx : Keeps v x) (hf : ∀ a, Keeps v (f a)) :
    Keeps v (x >>= f) := by
  intro s b s' h
  obtain ⟨a,s₁,h₁,h₂⟩ := (bind_ok x f).mp h
  rw [hf a s₁ b s' h₂,hx s a s₁ h₁]

theorem map (f : α → β) {x : Txn σ ε α} (hx : Keeps v x) : Keeps v (f <$> x) :=
  hx.bind fun a => .pure (f a)

theorem ite {p : Prop} [Decidable p] {x y : Txn σ ε α} (hx : Keeps v x) (hy : Keeps v y) :
    Keeps v (if p then x else y) := by
  split
  · exact hx
  · exact hy

theorem commit {x : Txn σ ε α} (hx : Keeps v x) (s : σ) : v (x.commit s) = v s := by
  rcases commit_cases x s with h | ⟨a,h⟩
  · rw [h]
  · exact hx s a _ h

/-- What is kept is kept in any function of it. -/
theorem comp {δ : Type} {x : Txn σ ε α} (hx : Keeps v x) (g : γ → δ) :
    Keeps (fun s => g (v s)) x := by
  intro s a s' h
  exact congrArg g (hx s a s' h)

end Keeps

/-- `x` moves the observation `v` by steps of `R` whenever it succeeds. -/
def Moves (v : σ → γ) (R : γ → γ → Prop) (x : Txn σ ε α) : Prop :=
  ∀ s a s', x.run s = .ok (a,s') → Relation.ReflTransGen R (v s) (v s')

theorem Keeps.moves {v : σ → γ} {R : γ → γ → Prop} {x : Txn σ ε α} (hx : Keeps v x) :
    Moves v R x := by
  intro s a s' h
  rw [hx s a s' h]

namespace Moves

variable {v : σ → γ} {R S : γ → γ → Prop}

theorem bind {x : Txn σ ε α} {f : α → Txn σ ε β} (hx : Moves v R x) (hf : ∀ a, Moves v R (f a)) :
    Moves v R (x >>= f) := by
  intro s b s' h
  obtain ⟨a,s₁,h₁,h₂⟩ := (bind_ok x f).mp h
  exact (hx s a s₁ h₁).trans (hf a s₁ b s' h₂)

theorem map (f : α → β) {x : Txn σ ε α} (hx : Moves v R x) : Moves v R (f <$> x) :=
  hx.bind fun a => (Keeps.pure (f a)).moves

theorem ite {p : Prop} [Decidable p] {x y : Txn σ ε α} (hx : Moves v R x) (hy : Moves v R y) :
    Moves v R (if p then x else y) := by
  split
  · exact hx
  · exact hy

theorem mono {x : Txn σ ε α} (h : ∀ a b, R a b → S a b) (hx : Moves v R x) : Moves v S x :=
  fun s a s' hrun => Relation.ReflTransGen.mono h _ _ (hx s a s' hrun)

end Moves

/-- `x` moves the observation by steps of `R` wherever the observation satisfies `P`. -/
def MovesFrom (v : σ → γ) (P : γ → Prop) (R : γ → γ → Prop) (x : Txn σ ε α) : Prop :=
  ∀ s a s', P (v s) → x.run s = .ok (a,s') → Relation.ReflTransGen R (v s) (v s')

theorem Moves.from {v : σ → γ} {P : γ → Prop} {R : γ → γ → Prop} {x : Txn σ ε α}
    (hx : Moves v R x) : MovesFrom v P R x := fun s a s' _ h => hx s a s' h

namespace MovesFrom

variable {v : σ → γ} {P : γ → Prop} {R : γ → γ → Prop}

/-- Steps that keep the condition lead to states that the rest may start in. -/
theorem bind {x : Txn σ ε α} {f : α → Txn σ ε β} (hP : ∀ a b, R a b → P a → P b)
    (hx : MovesFrom v P R x) (hf : ∀ a, MovesFrom v P R (f a)) : MovesFrom v P R (x >>= f) := by
  intro s b s' hs h
  obtain ⟨a,s₁,h₁,h₂⟩ := (bind_ok x f).mp h
  have hx := hx s a s₁ hs h₁
  exact hx.trans (hf a s₁ b s' (reflTransGen_invariant hP hx hs) h₂)

theorem ite {p : Prop} [Decidable p] {x y : Txn σ ε α} (hx : MovesFrom v P R x)
    (hy : MovesFrom v P R y) : MovesFrom v P R (if p then x else y) := by
  split
  · exact hx
  · exact hy

end MovesFrom
end Txn
end VermayAgent.Library
