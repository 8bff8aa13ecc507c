import Mathlib.Data.List.Infix
import Mathlib.Logic.Function.Basic
import VermayAgent.Library.Transition

/-! Programs of durable statements that can be cut off, and scripts that are taken up again.
A statement that has run is kept; whoever comes next finds the state that the cut left behind. -/
namespace VermayAgent.Library

universe u v

section Programs

variable {σ : Type u} {l : Type v} {α β : Type}

/-- How a program ends: with a value and what is left of its budget, cut off, or with an error. -/
inductive Ended (σ : Type u) (α : Type) where
  | completed (value : α) (left : Option ℕ) (state : σ)
  | cut (state : σ)
  | raised (state : σ)

namespace Ended

def state : Ended σ α → σ
  | completed _ _ s => s
  | cut s => s
  | raised s => s

def isCompleted : Ended σ α → Bool
  | completed _ _ _ => true
  | _ => false

def bind (e : Ended σ α) (f : α → Option ℕ → σ → Ended σ β) : Ended σ β :=
  match e with
  | completed value left s => f value left s
  | cut s => .cut s
  | raised s => .raised s

end Ended

/-- A program over durable statements. Its budget is a number of statements, or none for a run that
nothing cuts off. -/
structure Durable (σ : Type u) (α : Type) where
  run : Option ℕ → σ → Ended σ α

instance : Monad (Durable σ) where
  pure value := ⟨fun n s => .completed value n s⟩
  bind x f := ⟨fun n s => (x.run n s).bind fun value => (f value).run⟩

variable (step : l → σ → Option σ)

def execute (a : l) : Durable σ Unit where
  run n s :=
    if n = some 0 then .cut s
    else
      match step a s with
      | some s' => .completed () (n.map (·-1)) s'
      | none => .raised s

/-- A read of the state, which may raise. -/
def query (read : σ → Option α) : Durable σ α where
  run n s :=
    match read s with
    | some value => .completed value n s
    | none => .raised s

def raising : Durable σ α := ⟨fun _ s => .raised s⟩

def executeAll : List l → Durable σ Unit
  | [] => pure ()
  | a::as => execute step a >>= fun _ => executeAll as

/-- The program runs the statements of a script, one after the other, and then gives its value. -/
def Attempts (x : Durable σ α) (s : σ) (script : List l) (value : α) : Prop :=
  ∀ n, x.run n s = ((executeAll step script).run n s).bind fun _ left s' => .completed value left s'

variable {step} {s : σ} {script : List l} {x : Durable σ α} {value : α}

theorem Ended.bind_bind {γ : Type} (e : Ended σ α) (f : α → Option ℕ → σ → Ended σ β)
    (g : β → Option ℕ → σ → Ended σ γ) :
    (e.bind f).bind g = e.bind fun value left s' => (f value left s').bind g := by
  cases e <;> rfl

theorem execute_done {a : l} {s s' : σ} {n : Option ℕ} (hn : n ≠ some 0) (h : step a s = some s') :
    (execute step a).run n s = .completed () (n.map (·-1)) s' := by
  simp only [execute,if_neg hn,h]

theorem execute_raised {a : l} {s : σ} {n : Option ℕ} (hn : n ≠ some 0) (h : step a s = none) :
    (execute step a).run n s = .raised s := by
  simp only [execute,if_neg hn,h]

theorem executeAll_cons (a : l) (as : List l) (n : Option ℕ) (s : σ) :
    (executeAll step (a::as)).run n s =
      ((execute step a).run n s).bind fun _ => (executeAll step as).run := rfl

theorem executeAll_append (as bs : List l) (n : Option ℕ) (s : σ) :
    (executeAll step (as++bs)).run n s =
      ((executeAll step as).run n s).bind fun _ => (executeAll step bs).run := by
  induction as generalizing n s with
  | nil => rfl
  | cons a as ih =>
    rw [List.cons_append,executeAll_cons,executeAll_cons,Ended.bind_bind]
    congr 1
    funext value left s'
    exact ih left s'

/-- However a script ends, a first part of it has been run. -/
theorem executeAll_prefix (step : l → σ → Option σ) (as : List l) (n : Option ℕ) (s : σ) :
    ∃ done, done <+: as ∧ exec step done s = some ((executeAll step as).run n s).state := by
  induction as generalizing n s with
  | nil => exact ⟨[],List.nil_prefix,rfl⟩
  | cons a as ih =>
    rw [executeAll_cons]
    by_cases hn : n = some 0
    · subst hn
      exact ⟨[],List.nil_prefix,rfl⟩
    · cases ha : step a s with
      | none =>
        rw [execute_raised hn ha]
        exact ⟨[],List.nil_prefix,rfl⟩
      | some s' =>
        obtain ⟨done,hdone,hexec⟩ := ih (n.map (·-1)) s'
        rw [execute_done hn ha]
        exact ⟨a::done,List.cons_prefix_cons.mpr ⟨rfl,hdone⟩,exec_cons_eq_some.mpr ⟨s',ha,hexec⟩⟩

/-- A script that comes to its end has been run as a whole. -/
theorem executeAll_completed {as : List l} {n left : Option ℕ} {s s' : σ}
    (h : (executeAll step as).run n s = .completed () left s') : exec step as s = some s' := by
  induction as generalizing n s with
  | nil =>
    cases h
    rfl
  | cons a as ih =>
    rw [executeAll_cons] at h
    by_cases hn : n = some 0
    · subst hn
      cases h
    · cases ha : step a s with
      | none =>
        rw [execute_raised hn ha] at h
        cases h
      | some s₁ =>
        rw [execute_done hn ha] at h
        exact exec_cons_eq_some.mpr ⟨s₁,ha,ih h⟩

/-- Without a cut a script comes to its end exactly when none of its statements fails. -/
theorem executeAll_none (as : List l) (s : σ) :
    (executeAll step as).run none s = match exec step as s with
      | some s' => .completed () none s'
      | none => .raised ((executeAll step as).run none s).state := by
  induction as generalizing s with
  | nil => rfl
  | cons a as ih =>
    have huncut : (none : Option ℕ) ≠ some 0 := by simp
    rw [executeAll_cons,exec_cons]
    cases ha : step a s with
    | none =>
      rw [execute_raised huncut ha]
      rfl
    | some s' =>
      rw [execute_done huncut ha]
      exact ih s'

theorem attempts_pure : Attempts step (pure value) s [] value := fun _ => rfl

theorem attempts_execute (a : l) : Attempts step (execute step a) s [a] () := by
  intro n
  rw [executeAll_cons,Ended.bind_bind]
  cases (execute step a).run n s <;> rfl

theorem attempts_query {read : σ → Option α} (h : read s = some value) :
    Attempts step (query read) s [] value := by
  intro n
  simp only [query,h]
  rfl

/-- A program without a value ends as its script does. -/
theorem Attempts.ends {x : Durable σ Unit} (h : Attempts step x s script ()) (n : Option ℕ) :
    x.run n s = (executeAll step script).run n s := by
  rw [h n]
  cases (executeAll step script).run n s <;> rfl

/-- The statements of a program that goes on with another one. -/
theorem Attempts.bind {f : α → Durable σ β} {as bs : List l} {result : β}
    (hx : Attempts step x s as value)
    (hf : ∀ s', exec step as s = some s' → Attempts step (f value) s' bs result) :
    Attempts step (x >>= f) s (as++bs) result := by
  intro n
  change (x.run n s).bind (fun value => (f value).run) = _
  rw [hx n,executeAll_append,Ended.bind_bind,Ended.bind_bind]
  cases hall : (executeAll step as).run n s with
  | completed value left s' => exact hf s' (executeAll_completed hall) left
  | cut s' => rfl
  | raised s' => rfl

end Programs

section Scripts

variable {σ : Type u} {l : Type v} (step : l → σ → Option σ)

/-- The statement runs and changes nothing. -/
def Settled (a : l) (s : σ) : Prop := step a s = some s

/-- Where `P` holds each statement of the script settles itself, none of them unsettles another, and
`P` holds on. -/
structure Repeatable (P : σ → Prop) (script : List l) : Prop where
  keeps : ∀ a ∈ script, ∀ s s', P s → step a s = some s' → P s'
  settles : ∀ a ∈ script, ∀ s s', P s → step a s = some s' → Settled step a s'
  settled : ∀ a ∈ script, ∀ b ∈ script, ∀ s s', P s → Settled step a s → step b s = some s' →
    Settled step a s'

/-- From wherever it has been cut off, the script leads through the states of its run from `s`. -/
def Resumable (script : List l) (s : σ) : Prop :=
  ∀ done s₁, done <+: script → exec step done s = some s₁ →
    exec step script s₁ = exec step script s ∧
    ∀ next s₂, next <+: script → exec step next s₁ = some s₂ →
      ∃ done', done' <+: script ∧ exec step done' s = some s₂

/-- Once the script has begun, the state shows it. -/
def OneShot (begun : σ → Prop) (script : List l) (s : σ) : Prop :=
  ∀ done s₁, done <+: script → done ≠ [] → exec step done s = some s₁ → begun s₁

variable {step} {script : List l} {s s' : σ}

theorem exec_settled {as : List l} (h : ∀ a ∈ as, Settled step a s) :
    exec step as s = some s := by
  induction as with
  | nil => rfl
  | cons a as ih =>
    rw [List.forall_mem_cons] at h
    exact exec_cons_eq_some.mpr ⟨s,h.1,ih h.2⟩

theorem Repeatable.exec_settles {P : σ → Prop} (h : Repeatable step P script) (hs : P s)
    {as : List l} (hsub : ∀ a ∈ as, a ∈ script) (hexec : exec step as s = some s') :
    P s' ∧ ∀ a ∈ as, Settled step a s' := by
  induction as using List.reverseRecOn generalizing s' with
  | nil =>
    cases hexec
    exact ⟨hs,by simp⟩
  | append_singleton as b ih =>
    rw [exec_append] at hexec
    obtain ⟨s₁,h₁,h₂⟩ := Option.bind_eq_some_iff.mp hexec
    obtain ⟨s₂,hb,hend⟩ := exec_cons_eq_some.mp h₂
    cases hend
    have hbmem : b ∈ script := hsub b (by simp)
    obtain ⟨hs₁,hsettled⟩ := ih (fun a ha => hsub a (List.mem_append_left _ ha)) h₁
    refine ⟨h.keeps b hbmem s₁ s' hs₁ hb,fun a ha => ?_⟩
    rcases List.mem_append.mp ha with ha | ha
    · exact h.settled a (hsub a (List.mem_append_left _ ha)) b hbmem s₁ s' hs₁ (hsettled a ha) hb
    · rw [List.mem_singleton] at ha
      subst ha
      exact h.settles a hbmem s₁ s' hs₁ hb

/-- What has been run before is passed over when the script is run again. -/
theorem Repeatable.exec_again {P : σ → Prop} (h : Repeatable step P script) (hs : P s)
    {done rest : List l} {s₁ : σ} (hdone : ∀ a ∈ done, a ∈ script)
    (hexec : exec step done s = some s₁) :
    exec step (done ++ rest) s₁ = exec step (done ++ rest) s := by
  rw [exec_append,exec_append,hexec,exec_settled (h.exec_settles hs hdone hexec).2]

theorem Repeatable.resumable {P : σ → Prop} (h : Repeatable step P script) (hs : P s) :
    Resumable step script s := by
  intro done s₁ hdone hexec
  have hsub : ∀ a ∈ done, a ∈ script := fun a ha => hdone.subset ha
  refine ⟨?_,fun next s₂ hnext hrun => ?_⟩
  · obtain ⟨rest,rfl⟩ := hdone
    exact h.exec_again hs hsub hexec
  · rcases List.prefix_or_prefix_of_prefix hnext hdone with hle | hle
    · have hsettled : ∀ a ∈ next, Settled step a s₁ := fun a ha =>
        (h.exec_settles hs hsub hexec).2 a (hle.subset ha)
      rw [exec_settled hsettled] at hrun
      cases hrun
      exact ⟨done,hdone,hexec⟩
    · obtain ⟨rest,rfl⟩ := hle
      rw [h.exec_again hs hsub hexec] at hrun
      exact ⟨_,hnext,hrun⟩

end Scripts

section Migrations

variable {σ : Type u} {l : Type v} {m t : Type} (step : l → σ → Option σ)
  (script : m → List l) (record : t → m → l)

/-- The statements of migrations: the script of each, and what records it at its time. -/
def migration (clock : m → t) (ms : List m) : List l :=
  ms.flatMap fun x => script x ++ [record (clock x) x]

/-- A state on the way of the migrations `ms` from `base`, where those of `rest` are still to be
recorded: the first of them may have been cut off within its script. -/
inductive Partway (base : σ) (ms : List m) : List m → σ → Prop
  | finished {s : σ} (clock : m → t)
      (h : exec step (migration script record clock ms) base = some s) : Partway base ms [] s
  | within {s s₀ : σ} (clock : m → t) (before : List m) (x : m) (rest : List m) (done : List l)
      (hms : ms = before ++ x::rest)
      (hbefore : exec step (migration script record clock before) base = some s₀)
      (hdone : done <+: script x) (h : exec step done s₀ = some s) : Partway base ms (x::rest) s

/-- Each of the migrations can be taken up again at its place, or shows that it has begun. -/
def TakesUp (begun : m → σ → Prop) (base : σ) (ms : List m) : Prop :=
  ∀ (clock : m → t) before x rest s, ms = before ++ x::rest →
    exec step (migration script record clock before) base = some s →
    Resumable step (script x) s ∨ OneShot step (begun x) (script x) s

/-- A migration that has begun fails at its first statement. -/
def Blocks (begun : m → σ → Prop) : Prop :=
  ∀ x s, begun x s → ∃ a ∈ (script x).head?, step a s = none

variable {step script record}

theorem migration_cons (clock : m → t) (x : m) (ms : List m) :
    migration script record clock (x::ms) =
      script x ++ record (clock x) x::migration script record clock ms := by
  rw [migration,List.flatMap_cons,List.append_assoc]
  rfl

theorem migration_append (clock : m → t) (as bs : List m) :
    migration script record clock (as ++ bs) =
      migration script record clock as ++ migration script record clock bs :=
  List.flatMap_append

theorem migration_congr {clock clock' : m → t} {ms : List m} (h : ∀ x ∈ ms, clock x = clock' x) :
    migration script record clock ms = migration script record clock' ms :=
  List.flatMap_congr fun x hx => by rw [h x hx]

/-- Two runs of migrations, each with times of its own, are one run. -/
theorem migration_joins (script : m → List l) (record : t → m → l) (clock clock' : m → t)
    {before rest : List m} (hnodup : (before ++ rest).Nodup) :
    ∃ clock₁ : m → t, migration script record clock₁ (before ++ rest) =
      migration script record clock before ++ migration script record clock' rest := by
  classical
  refine ⟨fun x => if x ∈ before then clock x else clock' x,?_⟩
  rw [migration_append]
  congr 1
  · exact migration_congr fun x hx => if_pos hx
  · have hdisjoint := (List.nodup_append.mp hnodup).2.2
    exact migration_congr fun x hx => if_neg fun hb => hdisjoint x hb x hx rfl

variable {base s s' : σ} {ms : List m}

/-- Between two migrations, any first part of those that follow leads on along the way. -/
theorem partway_between {clock clock' : m → t} {before rest : List m} {next : List l}
    (hnodup : ms.Nodup) (hms : ms = before ++ rest)
    (hbefore : exec step (migration script record clock before) base = some s)
    (hnext : next <+: migration script record clock' rest) (h : exec step next s = some s') :
    ∃ rest', rest' <:+ rest ∧ Partway step script record base ms rest' s' := by
  induction rest generalizing before clock s next with
  | nil =>
    rw [List.prefix_nil.mp hnext] at h
    cases h
    rw [List.append_nil] at hms
    exact ⟨[],List.suffix_rfl,.finished clock (hms ▸ hbefore)⟩
  | cons x rest ih =>
    rw [migration_cons] at hnext
    rcases List.prefix_or_prefix_of_prefix hnext (List.prefix_append _ _) with hle | hle
    · exact ⟨x::rest,List.suffix_rfl,.within clock before x rest next hms hbefore hle h⟩
    · obtain ⟨tail,rfl⟩ := hle
      have htail := (List.prefix_append_right_inj _).mp hnext
      cases tail with
      | nil =>
        rw [List.append_nil] at h
        exact ⟨x::rest,List.suffix_rfl,
          .within clock before x rest (script x) hms hbefore List.prefix_rfl h⟩
      | cons a tail =>
        obtain ⟨rfl,hlast⟩ := List.cons_prefix_cons.mp htail
        rw [exec_append] at h
        obtain ⟨s₁,h₁,h₂⟩ := Option.bind_eq_some_iff.mp h
        obtain ⟨s₂,hrecord,hrun⟩ := exec_cons_eq_some.mp h₂
        have hms' : ms = (before ++ [x]) ++ rest := by
          rw [hms,List.append_assoc]
          rfl
        have hprefix : (before ++ [x]).Nodup := by
          rw [hms'] at hnodup
          exact (List.nodup_append.mp hnodup).1
        obtain ⟨clock₁,hclock₁⟩ := migration_joins script record clock clock' hprefix
        have hstep : exec step (migration script record clock₁ (before ++ [x])) base = some s₂ := by
          rw [hclock₁,exec_append,hbefore,migration_cons]
          simp only [Option.bind_some,exec_append,h₁,exec_cons,hrecord]
          rfl
        obtain ⟨rest',hrest',hway⟩ := ih hms' hstep hlast hrun
        exact ⟨rest',hrest'.trans (List.suffix_cons x rest),hway⟩

variable {begun : m → σ → Prop}

/-- Where a migration has begun, nothing that follows changes the state. -/
theorem blocked_exec {clock : m → t} {x : m} {rest : List m} {next : List l}
    (hblocks : Blocks step script begun) (h : begun x s)
    (hnext : next <+: migration script record clock (x::rest))
    (hexec : exec step next s = some s') : next = [] := by
  obtain ⟨a,ha,hfails⟩ := hblocks x s h
  obtain ⟨as,has⟩ := List.head?_eq_some_iff.mp ha
  cases next with
  | nil => rfl
  | cons b next =>
    rw [migration_cons,has,List.cons_append,List.cons_prefix_cons] at hnext
    obtain ⟨s₁,hb,_⟩ := exec_cons_eq_some.mp hexec
    rw [hnext.1,hfails] at hb
    cases hb

/-- Where a migration has begun, nothing comes to its end. -/
theorem blocked {clock : m → t} {rest : List m} (hblocks : Blocks step script begun)
    (h : ∃ x ∈ rest.head?, begun x s) :
    exec step (migration script record clock rest) s = none := by
  obtain ⟨x,hx,hbegun⟩ := h
  obtain ⟨rest,rfl⟩ := List.head?_eq_some_iff.mp hx
  rw [Option.eq_none_iff_forall_ne_some]
  intro s' hexec
  have hempty := blocked_exec hblocks hbegun List.prefix_rfl hexec
  rw [migration_cons] at hempty
  simp at hempty

/-- Any first part of what is still to be done leads on along the way. -/
theorem Partway.goes_on {clock' : m → t} {rest : List m} {next : List l}
    (hblocks : Blocks step script begun) (hmodes : TakesUp step script record begun base ms)
    (hnodup : ms.Nodup) (hway : Partway step script record base ms rest s)
    (hnext : next <+: migration script record clock' rest) (h : exec step next s = some s') :
    ∃ rest', rest' <:+ rest ∧ Partway step script record base ms rest' s' := by
  cases hway with
  | finished clock hall =>
    exact partway_between hnodup (List.append_nil ms).symm hall hnext h
  | @within _ s₀ clock before x rest done hms hbefore hdone hexec =>
    by_cases hempty : done = []
    · subst hempty
      cases hexec
      exact partway_between hnodup hms hbefore hnext h
    rcases hmodes clock before x rest s₀ hms hbefore with hresumes | honce
    · obtain ⟨hagain,hparts⟩ := hresumes done s hdone hexec
      have hjoins := hnext
      rw [migration_cons] at hjoins
      rcases List.prefix_or_prefix_of_prefix hjoins (List.prefix_append _ _) with hle | hle
      · obtain ⟨done',hdone',hexec'⟩ := hparts next s' hle h
        exact ⟨x::rest,List.suffix_rfl,.within clock before x rest done' hms hbefore hdone' hexec'⟩
      · obtain ⟨tail,rfl⟩ := hle
        rw [exec_append,hagain,← exec_append] at h
        exact partway_between hnodup hms hbefore hnext h
    · have hbegun : begun x s := honce done s hdone hempty hexec
      rw [blocked_exec hblocks hbegun hnext h] at h
      cases h
      exact ⟨x::rest,List.suffix_rfl,.within clock before x rest done hms hbefore hdone hexec⟩

/-- A script that is taken up again leads where its first run would have, or shows that it has
begun. -/
theorem taken_up {clock : m → t} {x : m} {rest : List m} {s₀ : σ} {done : List l}
    (hmode : Resumable step (script x) s₀ ∨ OneShot step (begun x) (script x) s₀)
    (hdone : done <+: script x) (h : exec step done s₀ = some s) :
    exec step (migration script record clock (x::rest)) s =
        exec step (migration script record clock (x::rest)) s₀ ∨ begun x s := by
  by_cases hempty : done = []
  · subst hempty
    cases h
    exact .inl rfl
  rcases hmode with hresumes | honce
  · left
    rw [migration_cons,exec_append,exec_append,(hresumes done s hdone h).1]
  · exact .inr (honce done s hdone hempty h)

/-- The way to its end is that of one run without a cut. -/
theorem Partway.arrives {clock' : m → t} {rest : List m} (hblocks : Blocks step script begun)
    (hmodes : TakesUp step script record begun base ms) (hnodup : ms.Nodup)
    (hway : Partway step script record base ms rest s)
    (h : exec step (migration script record clock' rest) s = some s') :
    ∃ clock : m → t, exec step (migration script record clock ms) base = some s' := by
  cases hway with
  | finished clock hall =>
    cases h
    exact ⟨clock,hall⟩
  | @within _ s₀ clock before x rest done hms hbefore hdone hexec =>
    rcases taken_up (hmodes clock before x rest s₀ hms hbefore) hdone hexec with hsame | hbegun
    · rw [hsame] at h
      rw [hms] at hnodup ⊢
      obtain ⟨clock₁,hclock₁⟩ := migration_joins script record clock clock' hnodup
      refine ⟨clock₁,?_⟩
      rw [hclock₁,exec_append,hbefore]
      exact h
    · rw [blocked hblocks ⟨x,rfl,hbegun⟩] at h
      cases h

/-- What is still to be done fails exactly where the next migration has begun. -/
theorem Partway.blocked_iff {clock' : m → t} {rest : List m} (hblocks : Blocks step script begun)
    (hmodes : TakesUp step script record begun base ms) (hnodup : ms.Nodup)
    (hruns : ∀ clock : m → t, exec step (migration script record clock ms) base ≠ none)
    (hway : Partway step script record base ms rest s) :
    exec step (migration script record clock' rest) s = none ↔ ∃ x ∈ rest.head?, begun x s := by
  refine ⟨fun hnone => ?_,blocked hblocks⟩
  cases hway with
  | finished clock hall => cases hnone
  | @within _ s₀ clock before x rest done hms hbefore hdone hexec =>
    rcases taken_up (hmodes clock before x rest s₀ hms hbefore) hdone hexec with hsame | hbegun
    · rw [hsame] at hnone
      have hnodup' := hnodup
      rw [hms] at hnodup'
      obtain ⟨clock₁,hclock₁⟩ := migration_joins script record clock clock' hnodup'
      have hrun := hruns clock₁
      rw [hms,hclock₁,exec_append,hbefore] at hrun
      exact absurd hnone hrun
    · exact ⟨x,rfl,hbegun⟩

end Migrations

end VermayAgent.Library
