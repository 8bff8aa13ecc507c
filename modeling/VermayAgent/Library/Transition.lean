import Mathlib.Data.List.Basic

/-! Labelled partial transition systems.
A run is a list of labels; a guard restricts in which state each label may be taken. -/
namespace VermayAgent.Library

universe u v

variable {σ : Type u} {l : Type v}

/-- Take the labelled steps one after the other; a step that is not enabled ends the run. -/
def exec (step : l → σ → Option σ) : List l → σ → Option σ
  | [], s => some s
  | a::as, s => (step a s).bind (exec step as)

/-- Every step of the run is taken in a state that its guard admits. -/
def Guarded (step : l → σ → Option σ) (guard : l → σ → Prop) : List l → σ → Prop
  | [], _ => True
  | a::as, s => guard a s ∧ ∀ s', step a s = some s' → Guarded step guard as s'

/-- Every state along the run satisfies `P`. -/
def Always (step : l → σ → Option σ) (P : σ → Prop) : List l → σ → Prop
  | [], s => P s
  | a::as, s => P s ∧ ∀ s', step a s = some s' → Always step P as s'

variable {step : l → σ → Option σ} {guard : l → σ → Prop}

@[simp] theorem exec_nil (s : σ) : exec step [] s = some s := rfl

theorem exec_cons (a : l) (as : List l) (s : σ) :
    exec step (a::as) s = (step a s).bind (exec step as) := rfl

theorem exec_cons_eq_some {a : l} {as : List l} {s s' : σ} :
    exec step (a::as) s = some s' ↔ ∃ s₁, step a s = some s₁ ∧ exec step as s₁ = some s' := by
  rw [exec_cons,Option.bind_eq_some_iff]

theorem exec_append (as bs : List l) (s : σ) :
    exec step (as++bs) s = (exec step as s).bind (exec step bs) := by
  induction as generalizing s with
  | nil => rfl
  | cons a as ih =>
    rw [List.cons_append,exec_cons,exec_cons,Option.bind_assoc]
    exact congrArg _ (funext ih)

theorem guarded_of_forall {as : List l} (h : ∀ a ∈ as, ∀ s, guard a s) (s : σ) :
    Guarded step guard as s := by
  induction as generalizing s with
  | nil => trivial
  | cons a as ih =>
    exact ⟨h a List.mem_cons_self s,fun s' _ => ih (fun b hb => h b (List.mem_cons_of_mem a hb)) s'⟩

theorem guarded_append {as bs : List l} {s : σ} : Guarded step guard (as++bs) s ↔
    Guarded step guard as s ∧ ∀ s', exec step as s = some s' → Guarded step guard bs s' := by
  induction as generalizing s with
  | nil => simp [Guarded]
  | cons a as ih =>
    simp only [List.cons_append,Guarded,ih,exec_cons_eq_some]
    constructor
    · rintro ⟨hguard,hrest⟩
      exact ⟨⟨hguard,fun s' hs => (hrest s' hs).1⟩,fun s' ⟨s₁,h₁,h₂⟩ => (hrest s₁ h₁).2 s' h₂⟩
    · rintro ⟨⟨hguard,hrest⟩,hend⟩
      exact ⟨hguard,fun s₁ h₁ => ⟨hrest s₁ h₁,fun s' h₂ => hend s' ⟨s₁,h₁,h₂⟩⟩⟩

instance decidableGuarded [∀ a s, Decidable (guard a s)] :
    ∀ as s, Decidable (Guarded step guard as s)
  | [], _ => isTrue trivial
  | a::as, s =>
    match h : step a s with
    | none => decidable_of_iff (guard a s) (by simp [Guarded,h])
    | some s' =>
      have := decidableGuarded as s'
      decidable_of_iff (guard a s ∧ Guarded step guard as s') (by simp [Guarded,h])

/-- An invariant that every guarded step preserves holds wherever a guarded run ends. -/
theorem exec_invariant_guarded {I : σ → Prop}
    (hstep : ∀ a s s', I s → guard a s → step a s = some s' → I s')
    {as : List l} {s s' : σ} (hs : I s) (hg : Guarded step guard as s)
    (h : exec step as s = some s') : I s' := by
  induction as generalizing s with
  | nil => exact Option.some.inj h ▸ hs
  | cons a as ih =>
    obtain ⟨s₁,h₁,h₂⟩ := exec_cons_eq_some.mp h
    exact ih (hstep a s s₁ hs hg.1 h₁) (hg.2 s₁ h₁) h₂

/-- An invariant that every step preserves holds wherever a run ends. -/
theorem exec_invariant {I : σ → Prop} (hstep : ∀ a s s', I s → step a s = some s' → I s')
    {as : List l} {s s' : σ} (hs : I s) (h : exec step as s = some s') : I s' := by
  have hguard : Guarded step (fun _ _ => True) as s := guarded_of_forall (fun _ _ _ => trivial) s
  exact exec_invariant_guarded (fun a s s' hs _ => hstep a s s' hs) hs hguard h

/-- What no label of the run changes is the same at its end. -/
theorem exec_keeps {β : Type v} {f : σ → β} {as : List l} {s s' : σ}
    (hstep : ∀ a ∈ as, ∀ s s', step a s = some s' → f s' = f s)
    (h : exec step as s = some s') : f s' = f s := by
  induction as generalizing s with
  | nil => rw [Option.some.inj h]
  | cons a as ih =>
    obtain ⟨s₁,h₁,h₂⟩ := exec_cons_eq_some.mp h
    rw [ih (fun b hb => hstep b (List.mem_cons_of_mem a hb)) h₂,hstep a List.mem_cons_self s s₁ h₁]

/-- A property that a step keeps exactly when its guard admits it holds along a run exactly when
the run is guarded. -/
theorem always_iff_guarded {I P : σ → Prop}
    (hI : ∀ a s s', I s → step a s = some s' → I s')
    (hP : ∀ a s s', I s → P s → step a s = some s' → (P s' ↔ guard a s))
    (hdisabled : ∀ a s, step a s = none → guard a s)
    {as : List l} {s : σ} (hs : I s) (hp : P s) :
    Always step P as s ↔ Guarded step guard as s := by
  induction as generalizing s with
  | nil => exact ⟨fun _ => trivial,fun _ => hp⟩
  | cons a as ih =>
    cases ha : step a s with
    | none => simp [Always,Guarded,ha,hp,hdisabled a s ha]
    | some s₁ =>
      have hiff := hP a s s₁ hs hp ha
      constructor
      · rintro ⟨_,hall⟩
        have hnext := hall s₁ ha
        have hp₁ : P s₁ := by
          cases as with
          | nil => exact hnext
          | cons => exact hnext.1
        refine ⟨hiff.mp hp₁,fun s' h' => ?_⟩
        cases ha.symm.trans h'
        exact (ih (hI a s s₁ hs ha) hp₁).mp hnext
      · rintro ⟨hguard,hrest⟩
        refine ⟨hp,fun s' h' => ?_⟩
        cases ha.symm.trans h'
        exact (ih (hI a s s₁ hs ha) (hiff.mpr hguard)).mpr (hrest s₁ ha)

/-- A reflexive and transitive relation that every step respects relates the ends of a run. -/
theorem exec_relates {R : σ → σ → Prop} (hrefl : ∀ s, R s s)
    (htrans : ∀ s₁ s₂ s₃, R s₁ s₂ → R s₂ s₃ → R s₁ s₃)
    (hstep : ∀ a s s', step a s = some s' → R s s')
    {as : List l} {s s' : σ} (h : exec step as s = some s') : R s s' := by
  induction as generalizing s with
  | nil => exact Option.some.inj h ▸ hrefl s
  | cons a as ih =>
    obtain ⟨s₁,h₁,h₂⟩ := exec_cons_eq_some.mp h
    exact htrans s s₁ s' (hstep a s s₁ h₁) (ih h₂)

end VermayAgent.Library
