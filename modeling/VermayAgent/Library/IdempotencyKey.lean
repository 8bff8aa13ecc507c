import Mathlib.Algebra.Group.Basic
import Mathlib.Logic.Function.Basic
import Mathlib.Logic.Relation

/-! A key under which a request is carried out at most once.
One holder claims the key; it consults somebody, prepares, dispatches the work and commits what
came of it, or fails at any point. A crash takes every holder away, and recovery decides what
they left undecided. -/
namespace VermayAgent.Library

inductive KeyFate (N : Type) where
  | free | pending | done (name : N) | failed
deriving DecidableEq

namespace KeyFate

variable {N : Type}

def decided : KeyFate N → Bool
  | free | pending => false
  | _ => true

/-- A failure decides only what is still pending. -/
def fail : KeyFate N → KeyFate N
  | pending => failed
  | fate => fate

end KeyFate

inductive HolderStage where
  | claimed | consulting | consulted | prepared | dispatched | finished | failing
deriving DecidableEq

namespace HolderStage

/-- How often the key was consulted about, and dispatched, when its holder is at work here. -/
def working : HolderStage → Option (Nat × Nat)
  | claimed => some (0,0)
  | consulting | consulted | prepared => some (1,0)
  | dispatched => some (1,1)
  | finished | failing => none

/-- One step of the work, with the calls that it makes. -/
inductive Advance : HolderStage → HolderStage → Nat → Nat → Prop where
  | consult : Advance claimed consulting 1 0
  | answer : Advance consulting consulted 0 0
  | prepare : Advance consulted prepared 0 0
  | dispatch : Advance prepared dispatched 0 1

end HolderStage

/-- The state of one key: `stored` is what has been committed under it. -/
@[ext] structure KeyState (H N V : Type) where
  fate : KeyFate N
  stored : V
  stage : H → Option HolderStage
  consults : Nat
  dispatches : Nat
  up : Bool

namespace KeyState

variable {H N V : Type} [DecidableEq H] [AddZeroClass V]

/-- The work dispatched before its commit, or in the committing step itself. -/
inductive Commits : HolderStage → Nat → Prop where
  | dispatched : Commits .dispatched 0
  | atOnce : Commits .consulted 1

/-- What can happen to a key; `shows n v` says that `v` is what an outcome named `n` stores. -/
inductive Step (shows : N → V → Prop) : KeyState H N V → KeyState H N V → Prop where
  | claim {s} (h : H) (hfree : s.fate = .free) (hup : s.up = true) :
    Step shows s {s with
      fate := .pending
      stage := Function.update s.stage h (some .claimed)}
  | advance {s st st' c d} (h : H) (hstage : s.stage h = some st)
      (hadvance : HolderStage.Advance st st' c d) :
    Step shows s {s with
      stage := Function.update s.stage h (some st')
      consults := s.consults+c
      dispatches := s.dispatches+d}
  | commit {s st d n v} (h : H) (hstage : s.stage h = some st) (hcommits : Commits st d)
      (hpending : s.fate = .pending) (hshows : shows n v) :
    Step shows s {s with
      fate := .done n
      stored := s.stored+v
      stage := Function.update s.stage h (some .finished)
      dispatches := s.dispatches+d}
  | fail {s st} (h : H) (hstage : s.stage h = some st) :
    Step shows s {s with stage := Function.update s.stage h (some .failing)}
  | dispatchFails {s} (h : H) (hstage : s.stage h = some .consulted) :
    Step shows s {s with
      stage := Function.update s.stage h (some .failing)
      dispatches := s.dispatches+1}
  | recordFailure {s} (h : H) (hstage : s.stage h = some .failing) :
    Step shows s {s with
      fate := s.fate.fail
      stage := Function.update s.stage h none}
  | finish {s} (h : H) (hstage : s.stage h = some .finished) :
    Step shows s {s with stage := Function.update s.stage h none}
  | crash {s} :
    Step shows s {s with
      stage := fun _ => none
      up := false}
  | recover {s} (hdown : s.up = false) : Step shows s {s with fate := s.fate.fail}
  | restart {s} (hdown : s.up = false) (hsettled : s.fate ≠ .pending) :
    Step shows s {s with up := true}
  | settle {s n v} (hfree : s.fate = .free) (hshows : shows n v) :
    Step shows s {s with
      fate := .done n
      stored := s.stored+v}

def start : KeyState H N V := ⟨.free,0,fun _ => none,0,0,false⟩

/-- One holder at most; it and the calls made fit the fate, and what is stored is what the fate
names and nothing else. -/
structure Sound (shows : N → V → Prop) (s : KeyState H N V) : Prop where
  unique : ∀ h h', s.stage h ≠ none → s.stage h' ≠ none → h = h'
  working : ∀ h st c d, s.stage h = some st → st.working = some (c,d) →
    s.fate = .pending ∧ s.consults = c ∧ s.dispatches = d
  finished : ∀ h, s.stage h = some .finished → ∃ n, s.fate = .done n
  free : s.fate = .free → (∀ h, s.stage h = none) ∧ s.consults = 0 ∧ s.dispatches = 0
  held : s.fate = .pending → s.up = true → ∃ h, s.stage h ≠ none
  down : s.up = false → ∀ h, s.stage h = none
  done : ∀ n, s.fate = .done n → shows n s.stored
  empty : (∀ n, s.fate ≠ .done n) → s.stored = 0
  consults : s.consults ≤ 1
  dispatches : s.dispatches ≤ 1

variable {shows : N → V → Prop} {s s' : KeyState H N V}

omit [DecidableEq H] in
theorem start_sound : (start : KeyState H N V).Sound shows := by
  constructor <;> simp [start]

omit [DecidableEq H] in
theorem up_of_holds (hs : s.Sound shows) {h : H} (hh : s.stage h ≠ none) : s.up = true := by
  by_contra hdown
  exact hh (hs.down (by simpa using hdown) h)

omit [DecidableEq H] in
theorem fate_ne_free (hs : s.Sound shows) {h : H} (hh : s.stage h ≠ none) : s.fate ≠ .free :=
  fun hfree => hh ((hs.free hfree).1 h)

omit [DecidableEq H] in
theorem only_holder (hs : s.Sound shows) {h : H} (hh : s.stage h ≠ none) :
    ∀ h', s.stage h' ≠ none → h' = h := fun h' hne => hs.unique h' h hne hh

omit [AddZeroClass V] in
/-- With one holder at most, a stage after its step is its own. -/
theorem stage_of_update {h h' : H} {o : Option HolderStage} {st : HolderStage}
    (honly : ∀ h', s.stage h' ≠ none → h' = h)
    (hst : Function.update s.stage h o h' = some st) : h' = h ∧ o = some st := by
  by_cases heq : h' = h
  · subst heq
    rw [Function.update_self] at hst
    exact ⟨rfl,hst⟩
  · rw [Function.update_of_ne heq] at hst
    exact absurd (honly h' (by simp [hst])) heq

/-- A move of the only holder there is, whose fate, calls and stored outcome fit its new stage. -/
theorem sound_of_move {h : H} (honly : ∀ h', s.stage h' ≠ none → h' = h)
    (hup : s.up = true) {o : Option HolderStage} {fate : KeyFate N} {stored : V} {c d : Nat}
    (hfree : fate ≠ .free)
    (hworking : ∀ st c' d', o = some st → st.working = some (c',d') →
      fate = .pending ∧ c = c' ∧ d = d')
    (hfinished : o = some .finished → ∃ n, fate = .done n) (hheld : fate = .pending → o ≠ none)
    (hdone : ∀ n, fate = .done n → shows n stored) (hempty : (∀ n, fate ≠ .done n) → stored = 0)
    (hc : c ≤ 1) (hd : d ≤ 1) :
    Sound shows {s with
      fate
      stored
      stage := Function.update s.stage h o
      consults := c
      dispatches := d} := by
  have hself : ∀ h', Function.update s.stage h o h' ≠ none → h' = h := by
    intro h' hne
    obtain ⟨st,hst⟩ := Option.ne_none_iff_exists'.mp hne
    exact (stage_of_update honly hst).1
  constructor
  · exact fun a b ha hb => (hself a ha).trans (hself b hb).symm
  · exact fun a st c' d' hst => hworking st c' d' (stage_of_update honly hst).2
  · exact fun a hst => hfinished (stage_of_update honly hst).2
  · exact fun heq => absurd heq hfree
  · exact fun heq _ => ⟨h,by simpa using hheld heq⟩
  · intro hdown
    cases hup.symm.trans hdown
  · exact hdone
  · exact hempty
  · exact hc
  · exact hd

omit [DecidableEq H] in
/-- Without a holder the fate alone has to fit what is stored. -/
theorem sound_of_idle (hnone : ∀ h, s.stage h = none)
    (hfree : s.fate = .free → s.consults = 0 ∧ s.dispatches = 0)
    (hheld : s.fate = .pending → s.up = false) (hdone : ∀ n, s.fate = .done n → shows n s.stored)
    (hempty : (∀ n, s.fate ≠ .done n) → s.stored = 0) (hc : s.consults ≤ 1)
    (hd : s.dispatches ≤ 1) : s.Sound shows := by
  constructor
  · exact fun a _ ha => absurd (hnone a) ha
  · intro a st c d hst
    rw [hnone a] at hst
    cases hst
  · intro a hst
    rw [hnone a] at hst
    cases hst
  · exact fun heq => ⟨hnone,hfree heq⟩
  · intro heq hup
    rw [hheld heq] at hup
    cases hup
  · exact fun _ => hnone
  · exact hdone
  · exact hempty
  · exact hc
  · exact hd

/-- Every step keeps the protocol sound. -/
theorem Step.sound (hs : s.Sound shows) (hstep : Step shows s s') : s'.Sound shows := by
  cases hstep with
  | claim h hfree hup =>
    obtain ⟨hnone,hc,hd⟩ := hs.free hfree
    refine sound_of_move (fun h' hne => absurd (hnone h') hne) hup (by simp) ?_
      (fun heq => by cases heq) (fun _ => by simp) (fun n heq => by cases heq)
      (fun _ => hs.empty (by simp [hfree]))
      hs.consults hs.dispatches
    rintro st c' d' ⟨⟩ hw
    cases hw
    exact ⟨rfl,hc,hd⟩
  | @advance st st' c d h hstage hadvance =>
    have hh : s.stage h ≠ none := by simp [hstage]
    obtain ⟨c₀,d₀,hw⟩ : ∃ c d, st.working = some (c,d) := by
      cases hadvance <;> exact ⟨_,_,rfl⟩
    obtain ⟨hpending,hc,hd⟩ := hs.working h _ _ _ hstage hw
    refine sound_of_move (only_holder hs hh) (up_of_holds hs hh) (by simp [hpending]) ?_ ?_
      (fun _ => by simp) hs.done hs.empty ?_ ?_
    · rintro _ c' d' ⟨⟩ hw'
      cases hadvance <;> cases hw <;> cases hw' <;> exact ⟨hpending,by omega,by omega⟩
    · intro heq
      cases heq
      cases hadvance
    · cases hadvance <;> cases hw <;> omega
    · cases hadvance <;> cases hw <;> omega
  | @commit st d n v h hstage hcommits hpending hshows =>
    have hh : s.stage h ≠ none := by simp [hstage]
    have hempty := hs.empty (by simp [hpending])
    have hcount : s.consults = 1 ∧ s.dispatches+d = 1 := by
      cases hcommits with
      | dispatched =>
        obtain ⟨_,hc,hd⟩ := hs.working h _ 1 1 hstage rfl
        exact ⟨hc,by rw [hd]⟩
      | atOnce =>
        obtain ⟨_,hc,hd⟩ := hs.working h _ 1 0 hstage rfl
        exact ⟨hc,by rw [hd]⟩
    refine sound_of_move (only_holder hs hh) (up_of_holds hs hh) (by simp) ?_
      (fun _ => ⟨_,rfl⟩) (fun heq => by cases heq) ?_
      (fun hne => absurd rfl (hne _)) hs.consults (by omega)
    · rintro st c' d' ⟨⟩ hw
      cases hw
    · rintro n ⟨⟩
      rw [hempty,zero_add]
      exact hshows
  | fail h hstage =>
    have hh : s.stage h ≠ none := by simp [hstage]
    refine sound_of_move (only_holder hs hh) (up_of_holds hs hh) (fate_ne_free hs hh) ?_
      (fun heq => by cases heq) (fun _ => by simp) hs.done hs.empty hs.consults hs.dispatches
    rintro st c' d' ⟨⟩ hw
    cases hw
  | dispatchFails h hstage =>
    have hh : s.stage h ≠ none := by simp [hstage]
    obtain ⟨_,hc,hd⟩ := hs.working h _ 1 0 hstage rfl
    refine sound_of_move (only_holder hs hh) (up_of_holds hs hh) (fate_ne_free hs hh) ?_
      (fun heq => by cases heq) (fun _ => by simp) hs.done hs.empty hs.consults (by omega)
    rintro st c' d' ⟨⟩ hw
    cases hw
  | recordFailure h hstage =>
    have hh : s.stage h ≠ none := by simp [hstage]
    have hfree := fate_ne_free hs hh
    refine sound_of_move (only_holder hs hh) (up_of_holds hs hh) ?_
      (fun _ _ _ heq => by cases heq) (fun heq => by cases heq) ?_ ?_ ?_ hs.consults hs.dispatches
    all_goals
      cases hfate : s.fate with
      | free => exact absurd hfate hfree
      | pending => simp [KeyFate.fail,hs.empty,hfate]
      | done n => simp [KeyFate.fail,hs.done n hfate]
      | failed => simp [KeyFate.fail,hs.empty,hfate]
  | finish h hstage =>
    have hh : s.stage h ≠ none := by simp [hstage]
    obtain ⟨n,hn⟩ := hs.finished h hstage
    refine sound_of_move (only_holder hs hh) (up_of_holds hs hh) (fate_ne_free hs hh)
      (fun _ _ _ heq => by cases heq) (fun heq => by cases heq) (fun heq => ?_) hs.done
      hs.empty hs.consults hs.dispatches
    rw [hn] at heq
    cases heq
  | crash =>
    exact sound_of_idle (fun _ => rfl) (fun heq => (hs.free heq).2) (fun _ => rfl) hs.done hs.empty
      hs.consults hs.dispatches
  | recover hdown =>
    refine sound_of_idle (hs.down hdown) (fun heq => ?_) (fun _ => hdown) ?_ ?_ hs.consults
      hs.dispatches
    · cases hfate : s.fate <;> simp [KeyFate.fail,hfate] at heq
      exact (hs.free hfate).2
    all_goals
      cases hfate : s.fate with
      | free => simp [KeyFate.fail,hs.empty,hfate]
      | pending => simp [KeyFate.fail,hs.empty,hfate]
      | done n => simp [KeyFate.fail,hs.done n hfate]
      | failed => simp [KeyFate.fail,hs.empty,hfate]
  | restart hdown hsettled =>
    exact sound_of_idle (hs.down hdown) (fun heq => (hs.free heq).2)
      (fun heq => absurd heq hsettled) hs.done hs.empty hs.consults hs.dispatches
  | settle hfree hshows =>
    obtain ⟨hnone,hc,hd⟩ := hs.free hfree
    refine sound_of_idle hnone (fun _ => ⟨hc,hd⟩) (fun heq => ?_) ?_
      (fun hne => absurd rfl (hne _)) hs.consults hs.dispatches
    · cases heq
    · rintro n ⟨⟩
      rw [hs.empty (by simp [hfree]),zero_add]
      exact hshows

/-- What is decided stays decided as it is. -/
theorem Step.decided (hstep : Step shows s s') (hd : s.fate.decided = true) :
    s'.fate = s.fate := by
  cases hfate : s.fate <;> rw [hfate] at hd <;> cases hstep <;>
    simp_all [KeyFate.decided,KeyFate.fail]

/-- Once it is decided, nothing is stored under the key and nobody is called about it. -/
theorem Step.settled (hs : s.Sound shows) (hstep : Step shows s s') (hd : s.fate.decided = true) :
    s'.stored = s.stored ∧ s'.consults = s.consults ∧ s'.dispatches = s.dispatches := by
  have hfree : s.fate ≠ .free := fun heq => by
    rw [heq] at hd
    cases hd
  have hpending : s.fate ≠ .pending := fun heq => by
    rw [heq] at hd
    cases hd
  cases hstep with
  | claim h heq => exact absurd heq hfree
  | @advance st st' c d h hstage hadvance =>
    obtain ⟨c,d,hw⟩ : ∃ c d, st.working = some (c,d) := by
      cases hadvance <;> exact ⟨_,_,rfl⟩
    exact absurd (hs.working h _ c d hstage hw).1 hpending
  | commit h hstage hcommits heq => exact absurd heq hpending
  | dispatchFails h hstage => exact absurd (hs.working h _ 1 0 hstage rfl).1 hpending
  | settle heq => exact absurd heq hfree
  | fail | recordFailure | finish | crash | recover | restart => exact ⟨rfl,rfl,rfl⟩

/-- A run of steps keeps the protocol sound. -/
theorem sound_of_steps (hs : s.Sound shows) (h : Relation.ReflTransGen (Step shows) s s') :
    s'.Sound shows := by
  induction h with
  | refl => exact hs
  | tail _ hstep ih => exact hstep.sound ih

theorem decided_of_steps (hd : s.fate.decided = true)
    (h : Relation.ReflTransGen (Step shows) s s') : s'.fate = s.fate := by
  induction h with
  | refl => rfl
  | tail _ hstep ih => rw [hstep.decided (ih ▸ hd),ih]

theorem settled_of_steps (hs : s.Sound shows) (hd : s.fate.decided = true)
    (h : Relation.ReflTransGen (Step shows) s s') :
    s'.stored = s.stored ∧ s'.consults = s.consults ∧ s'.dispatches = s.dispatches := by
  induction h with
  | refl => exact ⟨rfl,rfl,rfl⟩
  | tail hrun hstep ih =>
    obtain ⟨hstored,hconsults,hdispatches⟩ := hstep.settled (sound_of_steps hs hrun)
      ((decided_of_steps hd hrun).symm ▸ hd)
    exact ⟨hstored.trans ih.1,hconsults.trans ih.2.1,hdispatches.trans ih.2.2⟩

end KeyState
end VermayAgent.Library
