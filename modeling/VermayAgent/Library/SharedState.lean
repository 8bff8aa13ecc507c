import VermayAgent.Library.Connections
import VermayAgent.Library.Transition
import Mathlib.Logic.Function.Basic

/-! Any number of connections execute transactions on one state.
`Writes W x` says that whatever states the statements of `x` find, what `x` commits is reached by
steps of `W`; a property that the steps keep is then kept by every interleaving. -/
namespace VermayAgent.Library

namespace Txn

variable {σ ε α β : Type} {W V : σ → σ → Prop} {s s' : σ}

/-- The write part of the transaction makes steps of `W`, in whatever state it runs. -/
def Writes (W : σ → σ → Prop) : Txn σ ε α → Prop
  | done _ => True
  | read next => ∀ s, (next s).Writes W
  | isolated f => ∀ s a s', f s = .ok (a,s') → Relation.ReflTransGen W s s'

namespace Writes

theorem run {x : Txn σ ε α} {a : α} (hx : x.Writes W) (h : x.run s = .ok (a,s')) :
    Relation.ReflTransGen W s s' := by
  induction x with
  | done r =>
    cases r with
    | ok b =>
      cases h
      exact .refl
    | error e => cases h
  | read next ih => exact ih s (hx s) h
  | isolated f => exact hx s a s' h

theorem pure (a : α) : (pure a : Txn σ ε α).Writes W := trivial

theorem fail (e : ε) : (fail e : Txn σ ε α).Writes W := trivial

theorem select (f : σ → α) : (select f : Txn σ ε α).Writes W := fun _ => trivial

theorem require (p : Prop) [Decidable p] (e : ε) : (require p e : Txn σ ε Unit).Writes W := by
  unfold Txn.require
  split <;> trivial

theorem orFail (o : Option α) (e : ε) : (orFail o e : Txn σ ε α).Writes W := by
  cases o <;> trivial

theorem ofExcept (x : Except ε α) : (ofExcept x : Txn σ ε α).Writes W := trivial

theorem write {f : σ → σ} (hf : ∀ s, W s (f s)) : (write f : Txn σ ε Unit).Writes W := by
  intro s a s' h
  cases h
  exact .single (hf s)

theorem write? {f : σ → Option σ} {e : ε} (hf : ∀ s s', f s = some s' → W s s') :
    (write? f e : Txn σ ε Unit).Writes W := by
  intro s a s' h
  exact .single (hf s s' ((write?_ok f e).mp h))

/-- A statement runs in one state as a whole. -/
theorem statement {x : Txn σ ε α} (hx : x.Writes W) : (statement x).Writes W :=
  fun _ _ _ h => hx.run h

theorem statement_run {x : Txn σ ε α}
    (hx : ∀ s a s', x.run s = .ok (a,s') → Relation.ReflTransGen W s s') :
    (Txn.statement x).Writes W := hx

theorem bind {x : Txn σ ε α} {f : α → Txn σ ε β} (hx : x.Writes W) (hf : ∀ a, (f a).Writes W) :
    (x >>= f).Writes W := by
  change (x.bind f).Writes W
  induction x with
  | done r =>
    cases r with
    | ok a => exact hf a
    | error e => trivial
  | read next ih => exact fun s => ih s (hx s)
  | isolated g =>
    intro s b s' h
    cases hg : g s with
    | error e => simp [hg] at h
    | ok r =>
      simp only [hg] at h
      exact (hx s r.1 r.2 hg).trans ((hf r.1).run h)

/-- What follows a read may use what was read. -/
theorem select_bind {g : σ → α} {f : α → Txn σ ε β} (h : ∀ s, (f (g s)).Writes W) :
    (Txn.select g >>= f).Writes W := h

theorem orFail_bind {o : Option α} {e : ε} {f : α → Txn σ ε β}
    (h : ∀ a, o = some a → (f a).Writes W) : (Txn.orFail o e >>= f).Writes W := by
  cases o with
  | some a => exact h a rfl
  | none => trivial

/-- In one state, a transaction makes these steps as a whole. -/
theorem moves {x : Txn σ ε α} (hx : x.Writes W) : Moves (fun s => s) W x := fun _ _ _ h => hx.run h

/-- What follows a writing statement runs in the state that the statement left. -/
theorem statement_bind {x : Txn σ ε α} {f : α → Txn σ ε β} (hx : x.Writes W)
    (hf : ∀ a, Moves (fun s => s) W (f a)) : (Txn.statement x >>= f).Writes W := by
  intro s b s' h
  cases hrun : x.run s with
  | error e => simp [hrun] at h
  | ok r =>
    simp only [hrun] at h
    exact (hx.run hrun).trans (hf r.1 r.2 b s' h)

/-- After a write, all that follows runs in the state that the write left. -/
theorem write_bind {f : σ → σ} {g : Unit → Txn σ ε β}
    (h : ∀ s b s', (g ()).run (f s) = .ok (b,s') → Relation.ReflTransGen W s s') :
    (Txn.write f >>= g).Writes W := h

theorem map (f : α → β) {x : Txn σ ε α} (hx : x.Writes W) : (f <$> x).Writes W :=
  hx.bind fun a => .pure (f a)

theorem ite {p : Prop} [Decidable p] {x y : Txn σ ε α} (hx : x.Writes W) (hy : y.Writes W) :
    (if p then x else y).Writes W := by
  split
  · exact hx
  · exact hy

theorem mono {x : Txn σ ε α} (hx : x.Writes W) (h : ∀ s s', W s s' → V s s') : x.Writes V := by
  induction x with
  | done r => trivial
  | read next ih => exact fun s => ih s (hx s)
  | isolated f => exact fun s a s' hf => Relation.ReflTransGen.mono h _ _ (hx s a s' hf)

theorem commit {x : Txn σ ε α} (hx : x.Writes W) (s : σ) :
    Relation.ReflTransGen W s (x.commit s) := by
  rcases commit_cases x s with h | ⟨a,h⟩
  · rw [h]
  · exact hx.run h

/-- What is left of a transaction after one of its statements. -/
theorem rest {x y : Txn σ ε α} (hx : x.Writes W) (h : x.advance s = .inl y) : y.Writes W := by
  cases x with
  | done r => cases h
  | read next =>
    cases h
    exact hx s
  | isolated f =>
    simp only [advance] at h
    split at h <;> cases h

theorem result {x : Txn σ ε α} {r : Except ε α} (hx : x.Writes W)
    (h : x.advance s = .inr (r,s')) : Relation.ReflTransGen W s s' := by
  cases r with
  | ok a => exact hx.run (advance_ok h)
  | error e => rw [(advance_error h).2]

/-- A transaction keeps whatever observation the steps keep. -/
theorem keeps {γ : Type} {v : σ → γ} {x : Txn σ ε α} (hx : x.Writes W)
    (hv : ∀ s s', W s s' → v s' = v s) : Keeps v x := by
  intro s a s' h
  have hsteps := hx.run h
  clear h
  induction hsteps with
  | refl => rfl
  | tail _ hstep ih => exact (hv _ _ hstep).trans ih

end Writes

/-- The transaction only reads, and gives `r` whichever states of `P` its reads find. -/
def Reads (P : σ → Prop) (r : Except ε α) : Txn σ ε α → Prop
  | done r' => r' = r
  | read next => ∀ s, P s → (next s).Reads P r
  | isolated _ => False

namespace Reads

variable {P : σ → Prop} {r : Except ε α}

theorem run {x : Txn σ ε α} (hx : x.Reads P r) (hs : P s) : x.run s = r.map fun a => (a,s) := by
  induction x with
  | done r' =>
    cases hx
    cases r <;> rfl
  | read next ih => exact ih s (hx s hs)
  | isolated f => exact hx.elim

theorem bind {x : Txn σ ε β} {b : β} {f : β → Txn σ ε α} (hx : x.Reads P (.ok b))
    (hf : (f b).Reads P r) : (x >>= f).Reads P r := by
  change (x.bind f).Reads P r
  induction x with
  | done r' =>
    cases hx
    exact hf
  | read next ih => exact fun s hs => ih s (hx s hs)
  | isolated g => exact hx.elim

theorem bind_error {x : Txn σ ε β} {e : ε} {f : β → Txn σ ε α} (hx : x.Reads P (.error e)) :
    (x >>= f).Reads P (.error e) := by
  change (x.bind f).Reads P (.error e)
  induction x with
  | done r' =>
    cases hx
    rfl
  | read next ih => exact fun s hs => ih s (hx s hs)
  | isolated g => exact hx.elim

theorem select_bind {g : σ → β} {f : β → Txn σ ε α} (h : ∀ s, P s → (f (g s)).Reads P r) :
    (select g >>= f).Reads P r := h

theorem require_bind {p : Prop} [Decidable p] {e : ε} {f : Unit → Txn σ ε α} (hp : p)
    (h : (f ()).Reads P r) : (require p e >>= f).Reads P r := by
  rw [Txn.require,if_pos hp]
  exact h

theorem require_fail {p : Prop} [Decidable p] {e : ε} {f : Unit → Txn σ ε α} (hp : ¬ p) :
    (require p e >>= f).Reads P (.error e) := by
  rw [Txn.require,if_neg hp]
  rfl

end Reads
end Txn

/-- The committed state and what each connection still has to execute. -/
structure SharedState (σ ε : Type) where
  state : σ
  running : Nat → Option (Txn σ ε Unit)

inductive SharedStep (l : Type) where
  | begin (i : Nat) (a : l)
  | statement (i : Nat)
  /-- The connection was lost, or the write lock was not given in time. -/
  | abort (i : Nat)

namespace SharedState

open Txn

variable {σ ε l : Type} (program : l → Txn σ ε Unit)

def start (s : σ) : SharedState σ ε := ⟨s,fun _ => none⟩

def setRunning (i : Nat) (x : Option (Txn σ ε Unit)) (s : SharedState σ ε) : SharedState σ ε :=
  {s with running := Function.update s.running i x}

/-- A connection executes one statement after the other; a transaction that raises leaves the
state as it found it. -/
def step : SharedStep l → SharedState σ ε → Option (SharedState σ ε)
  | .begin i a, s =>
    match s.running i with
    | some _ => none
    | none => some (s.setRunning i (some (program a)))
  | .statement i, s =>
    match s.running i with
    | none => none
    | some x =>
      match x.advance s.state with
      | .inl rest => some (s.setRunning i (some rest))
      | .inr (_,state) => some ({s with state}.setRunning i none)
  | .abort i, s => some (s.setRunning i none)

variable {program} {W : σ → σ → Prop} {I : σ → Prop}

/-- The property holds of the committed state, and what is running makes steps of `W` only. -/
structure Ok (W : σ → σ → Prop) (I : σ → Prop) (s : SharedState σ ε) : Prop where
  state : I s.state
  running : ∀ i x, s.running i = some x → x.Writes W

theorem Ok.setRunning {s : SharedState σ ε} (h : s.Ok W I) {i : Nat} {x : Option (Txn σ ε Unit)}
    (hx : ∀ y, x = some y → y.Writes W) : (s.setRunning i x).Ok W I := by
  refine ⟨h.state,fun j y hy => ?_⟩
  by_cases hj : j = i
  · subst hj
    exact hx y (by simpa [SharedState.setRunning] using hy)
  · exact h.running j y (by simpa [SharedState.setRunning,hj] using hy)

theorem ok_start {s : σ} (hs : I s) : (start s : SharedState σ ε).Ok W I :=
  ⟨hs,fun _ _ hx => nomatch hx⟩

theorem ok_step {a : SharedStep l} {s s' : SharedState σ ε}
    (hprogram : ∀ i b, a = .begin i b → (program b).Writes W)
    (hI : ∀ s s', W s s' → I s → I s') (h : s.Ok W I) (hs : step program a s = some s') :
    s'.Ok W I := by
  cases a with
  | begin i b =>
    simp only [step] at hs
    split at hs
    · cases hs
    · cases hs
      exact h.setRunning fun y hy => Option.some.inj hy ▸ hprogram i b rfl
  | statement i =>
    simp only [step] at hs
    split at hs
    · cases hs
    · rename_i x hx
      have hwrites := h.running i x hx
      split at hs
      · rename_i rest hrest
        cases hs
        exact h.setRunning fun y hy => Option.some.inj hy ▸ hwrites.rest hrest
      · rename_i r state hstate
        cases hs
        have hok : ({s with state} : SharedState σ ε).Ok W I :=
          ⟨reflTransGen_invariant hI (hwrites.result hstate) h.state,h.running⟩
        exact hok.setRunning fun y hy => nomatch hy
  | abort i =>
    cases hs
    exact h.setRunning fun y hy => nomatch hy

/-- What every step of `W` keeps holds in every state that an interleaving commits, as long as the
transactions that begin make steps of `W` only. -/
theorem ok_exec {steps : List (SharedStep l)} {s s' : SharedState σ ε}
    (hprogram : ∀ i a, .begin i a ∈ steps → (program a).Writes W)
    (hI : ∀ s s', W s s' → I s → I s') (h : s.Ok W I)
    (hs : exec (step program) steps s = some s') : s'.Ok W I := by
  induction steps generalizing s with
  | nil => exact Option.some.inj hs ▸ h
  | cons a steps ih =>
    obtain ⟨s₁,h₁,h₂⟩ := exec_cons_eq_some.mp hs
    have hok := ok_step (fun i b hb => hprogram i b (hb ▸ List.mem_cons_self)) hI h h₁
    exact ih (fun i b hb => hprogram i b (List.mem_cons_of_mem a hb)) hok h₂

/-- The running transactions stay what they are when the property is replaced. -/
theorem Ok.replace {J : σ → Prop} {s : SharedState σ ε} (h : s.Ok W I) (hJ : J s.state) :
    s.Ok W J :=
  ⟨hJ,h.running⟩

end SharedState
end VermayAgent.Library
