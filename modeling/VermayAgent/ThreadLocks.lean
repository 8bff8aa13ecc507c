import Mathlib
import VermayAgent.Library.Parties
import VermayAgent.Library.Transition

/-! The local task runner: one lock for each runtime thread, and its close.
An entry of the lock table is created by the first caller of a thread and deleted by the last one
that leaves. A step is what one caller does under the guard, or between two sections of it. -/
namespace VermayAgent
open Library

/-- What is called on `DirectLangGraphLocalTaskRunner`. -/
inductive RunnerCall (ThreadId : Type) where
  | run (threadId : ThreadId)
  | resume (threadId : ThreadId)
  | resumeInput (threadId : ThreadId)
  | discardCheckpoint (threadId : ThreadId)
  | close
deriving DecidableEq, Repr

/-- The thread whose lock the call takes. -/
def RunnerCall.threadId? {ThreadId : Type} : RunnerCall ThreadId → Option ThreadId
  | run threadId | resume threadId | resumeInput threadId | discardCheckpoint threadId =>
    some threadId
  | close => none

/-- An entry is an object: the table and its users refer to it. -/
abbrev EntryId := ℕ

/-- `_ThreadLockEntry`. -/
structure ThreadLockEntry where
  locked : Bool
  users : ℕ
deriving DecidableEq, Repr

/-- How a call ended; a refused one met a closed runner. -/
inductive CallAnswer where
  | returned | raised | refused
deriving DecidableEq, Repr

/-- Where a call is. Between `counted` and `leaving` it is one of the users of its entry, and
from `closing` to `closingRuntime` it holds the close lock. -/
inductive CallPhase where
  | called
  | counted (entry : EntryId)
  | body (entry : EntryId)
  | leaving (entry : EntryId) (raised : Bool)
  | closing
  | parked
  | woken
  | idle
  | closingRuntime
  | ended (answer : CallAnswer)
deriving DecidableEq, Repr

namespace CallPhase

/-- The entry that counts the call among its users. -/
def entryId? : CallPhase → Option EntryId
  | counted e | body e | leaving e _ => some e
  | _ => none

def holdsClose : CallPhase → Bool
  | closing | parked | woken | idle | closingRuntime => true
  | _ => false

/-- The runner is marked as closed, and the runtime is not closed yet. -/
def pending : CallPhase → Bool
  | parked | woken | idle => true
  | _ => false

/-- `notify_all` reaches the calls that wait for an idle runner. -/
def notified : CallPhase → CallPhase
  | parked => woken
  | phase => phase

def hasEnded : CallPhase → Bool
  | ended _ => true
  | _ => false

end CallPhase

/-- The runner, and where each of its callers is. -/
structure LocalRunner (ι ThreadId : Type) where
  closed : Bool
  closeLock : Bool
  threadLocks : AList fun _ : ThreadId => EntryId
  entries : EntryId → ThreadLockEntry
  nextEntry : EntryId
  runtimeCloses : ℕ
  calls : ι → CallPhase

namespace LocalRunner

variable {ι ThreadId : Type} [DecidableEq ι] [DecidableEq ThreadId]

def opened : LocalRunner ι ThreadId where
  closed := false
  closeLock := false
  threadLocks := ∅
  entries := fun _ => ⟨false,0⟩
  nextEntry := 0
  runtimeCloses := 0
  calls := fun _ => .called

def goto (s : LocalRunner ι ThreadId) (i : ι) (phase : CallPhase) : LocalRunner ι ThreadId :=
  {s with calls := Function.update s.calls i phase}

def setEntry (s : LocalRunner ι ThreadId) (e : EntryId) (entry : ThreadLockEntry) :
    LocalRunner ι ThreadId :=
  {s with entries := Function.update s.entries e entry}

/-- The first section of `_acquire_thread`. -/
def acquire (s : LocalRunner ι ThreadId) (i : ι) (threadId : ThreadId) : LocalRunner ι ThreadId :=
  if s.closed then s.goto i (.ended .refused)
  else match s.threadLocks.lookup threadId with
    | some e => (s.setEntry e ⟨(s.entries e).locked,(s.entries e).users+1⟩).goto i (.counted e)
    | none =>
      ({s with
        threadLocks := s.threadLocks.insert threadId s.nextEntry
        nextEntry := s.nextEntry+1}.setEntry s.nextEntry ⟨false,1⟩).goto i (.counted s.nextEntry)

/-- The entry is deleted, and whoever waits for an idle runner looks again. -/
def delete (s : LocalRunner ι ThreadId) (threadId : ThreadId) : LocalRunner ι ThreadId :=
  {s with
    threadLocks := s.threadLocks.erase threadId
    calls := fun j => (s.calls j).notified}

/-- The last section of `_acquire_thread`. -/
def release (s : LocalRunner ι ThreadId) (i : ι) (threadId : ThreadId) (e : EntryId)
    (answer : CallAnswer) : LocalRunner ι ThreadId :=
  let t := (s.setEntry e ⟨(s.entries e).locked,(s.entries e).users-1⟩).goto i (.ended answer)
  if (t.entries e).users = 0 ∧ t.threadLocks.lookup threadId = some e then t.delete threadId else t

/-- One look at the table, in `wait_for`. -/
def awaitIdle (s : LocalRunner ι ThreadId) (i : ι) : LocalRunner ι ThreadId :=
  if s.threadLocks.keys = [] then s.goto i .idle else s.goto i .parked

/-- What the code of the call that runs in this step does: it raises, or not. -/
def answerOf (raises : Bool) : CallAnswer := if raises then .raised else .returned

/-- The next step of the call of `i`. A call of `run` can raise before it takes the lock, any body
can raise, and so can the close of the runtime. -/
def step (call : ι → RunnerCall ThreadId) (l : ι × Bool) (s : LocalRunner ι ThreadId) :
    Option (LocalRunner ι ThreadId) :=
  match s.calls l.1 with
  | .called =>
    match call l.1 with
    | .run threadId =>
      if l.2 then some (s.goto l.1 (.ended .raised)) else some (s.acquire l.1 threadId)
    | .resume threadId | .resumeInput threadId | .discardCheckpoint threadId =>
      some (s.acquire l.1 threadId)
    | .close => if s.closeLock then none else some ({s with closeLock := true}.goto l.1 .closing)
  | .counted e =>
    if (s.entries e).locked then none
    else some ((s.setEntry e ⟨true,(s.entries e).users⟩).goto l.1 (.body e))
  | .body e => some ((s.setEntry e ⟨false,(s.entries e).users⟩).goto l.1 (.leaving e l.2))
  | .leaving e raised => (call l.1).threadId?.map fun threadId =>
      s.release l.1 threadId e (answerOf raised)
  | .closing =>
    if s.closed then some ({s with closeLock := false}.goto l.1 (.ended .returned))
    else some ({s with closed := true}.awaitIdle l.1)
  | .parked => none
  | .woken => some (s.awaitIdle l.1)
  | .idle => some ({s with runtimeCloses := s.runtimeCloses+1}.goto l.1 .closingRuntime)
  | .closingRuntime => some ({s with closeLock := false}.goto l.1 (.ended (answerOf l.2)))
  | .ended _ => none

/-- What a step can do. -/
inductive Moves (call : ι → RunnerCall ThreadId) (s : LocalRunner ι ThreadId) (i : ι) :
    LocalRunner ι ThreadId → Prop where
  | turnedAway {threadId : ThreadId} (answer : CallAnswer) (hi : s.calls i = .called)
      (ht : (call i).threadId? = some threadId) : Moves call s i (s.goto i (.ended answer))
  | joined {threadId : ThreadId} {e : EntryId} (hi : s.calls i = .called)
      (ht : (call i).threadId? = some threadId) (hopen : s.closed = false)
      (hlookup : s.threadLocks.lookup threadId = some e) :
      Moves call s i ((s.setEntry e ⟨(s.entries e).locked,(s.entries e).users+1⟩).goto i
        (.counted e))
  | created {threadId : ThreadId} (hi : s.calls i = .called)
      (ht : (call i).threadId? = some threadId) (hopen : s.closed = false)
      (hlookup : s.threadLocks.lookup threadId = none) :
      Moves call s i (({s with
        threadLocks := s.threadLocks.insert threadId s.nextEntry
        nextEntry := s.nextEntry+1}.setEntry s.nextEntry ⟨false,1⟩).goto i (.counted s.nextEntry))
  | locked {e : EntryId} (hi : s.calls i = .counted e) (hfree : (s.entries e).locked = false) :
      Moves call s i ((s.setEntry e ⟨true,(s.entries e).users⟩).goto i (.body e))
  | unlocked {e : EntryId} (raised : Bool) (hi : s.calls i = .body e) :
      Moves call s i ((s.setEntry e ⟨false,(s.entries e).users⟩).goto i (.leaving e raised))
  | released {threadId : ThreadId} {e : EntryId} {raised : Bool} (answer : CallAnswer)
      (hi : s.calls i = .leaving e raised) (ht : (call i).threadId? = some threadId)
      (hlast : ¬ ((s.entries e).users-1 = 0 ∧ s.threadLocks.lookup threadId = some e)) :
      Moves call s i ((s.setEntry e ⟨(s.entries e).locked,(s.entries e).users-1⟩).goto i
        (.ended answer))
  | deleted {threadId : ThreadId} {e : EntryId} {raised : Bool} (answer : CallAnswer)
      (hi : s.calls i = .leaving e raised) (ht : (call i).threadId? = some threadId)
      (hlast : (s.entries e).users-1 = 0) (hlookup : s.threadLocks.lookup threadId = some e) :
      Moves call s i (((s.setEntry e ⟨(s.entries e).locked,(s.entries e).users-1⟩).goto i
        (.ended answer)).delete threadId)
  | tookClose (hi : s.calls i = .called) (hcall : call i = .close) (hfree : s.closeLock = false) :
      Moves call s i ({s with closeLock := true}.goto i .closing)
  | foundClosed (hi : s.calls i = .closing) (hclosed : s.closed = true) :
      Moves call s i ({s with closeLock := false}.goto i (.ended .returned))
  | marked (hi : s.calls i = .closing) (hopen : s.closed = false) :
      Moves call s i ({s with closed := true}.awaitIdle i)
  | looked (hi : s.calls i = .woken) : Moves call s i (s.awaitIdle i)
  | calledRuntime (hi : s.calls i = .idle) :
      Moves call s i ({s with runtimeCloses := s.runtimeCloses+1}.goto i .closingRuntime)
  | finished (answer : CallAnswer) (hi : s.calls i = .closingRuntime) :
      Moves call s i ({s with closeLock := false}.goto i (.ended answer))

variable {call : ι → RunnerCall ThreadId} {s s' : LocalRunner ι ThreadId} {i : ι}

theorem moves_acquire {threadId : ThreadId} (hi : s.calls i = .called)
    (ht : (call i).threadId? = some threadId) : Moves call s i (s.acquire i threadId) := by
  unfold acquire
  split
  · exact .turnedAway .refused hi ht
  · next hclosed =>
    split
    · next e hlookup => exact .joined hi ht (Bool.eq_false_of_not_eq_true hclosed) hlookup
    · next hlookup => exact .created hi ht (Bool.eq_false_of_not_eq_true hclosed) hlookup

theorem moves_release {threadId : ThreadId} {e : EntryId} {raised : Bool} (answer : CallAnswer)
    (hi : s.calls i = .leaving e raised) (ht : (call i).threadId? = some threadId) :
    Moves call s i (s.release i threadId e answer) := by
  simp only [release,goto,setEntry,Function.update_self]
  split
  · next hlast => exact .deleted answer hi ht hlast.1 hlast.2
  · next hlast => exact .released answer hi ht hlast

theorem moves_of_step {raises : Bool} (h : step call (i,raises) s = some s') :
    Moves call s i s' := by
  unfold step at h
  cases hi : s.calls i with
  | called =>
    cases hcall : call i with
    | run threadId =>
      have ht : (call i).threadId? = some threadId := by rw [hcall]; rfl
      simp only [hi,hcall] at h
      split at h
      · cases h
        exact .turnedAway .raised hi ht
      · cases h
        exact moves_acquire hi ht
    | resume threadId | resumeInput threadId | discardCheckpoint threadId =>
      simp only [hi,hcall,Option.some.injEq] at h
      rw [← h]
      exact moves_acquire hi (by rw [hcall]; rfl)
    | close =>
      simp only [hi,hcall] at h
      split at h
      · cases h
      · next hfree =>
        cases h
        exact .tookClose hi hcall (Bool.eq_false_of_not_eq_true hfree)
  | counted e =>
    simp only [hi] at h
    split at h
    · cases h
    · next hfree =>
      cases h
      exact .locked hi (Bool.eq_false_of_not_eq_true hfree)
  | body e =>
    simp only [hi,Option.some.injEq] at h
    rw [← h]
    exact .unlocked raises hi
  | leaving e raised =>
    simp only [hi] at h
    obtain ⟨threadId,ht,rfl⟩ := Option.map_eq_some_iff.mp h
    exact moves_release _ hi ht
  | closing =>
    simp only [hi] at h
    split at h
    · next hclosed =>
      cases h
      exact .foundClosed hi hclosed
    · next hopen =>
      cases h
      exact .marked hi (Bool.eq_false_of_not_eq_true hopen)
  | woken =>
    simp only [hi,Option.some.injEq] at h
    rw [← h]
    exact .looked hi
  | idle =>
    simp only [hi,Option.some.injEq] at h
    rw [← h]
    exact .calledRuntime hi
  | closingRuntime =>
    simp only [hi,Option.some.injEq] at h
    rw [← h]
    exact .finished _ hi
  | parked | ended _ => simp [hi] at h

@[simp] theorem CallPhase.entryId?_notified (p : CallPhase) : p.notified.entryId? = p.entryId? := by
  cases p <;> rfl

@[simp] theorem CallPhase.notified_eq_body {p : CallPhase} {e : EntryId} :
    p.notified = .body e ↔ p = .body e := by
  cases p <;> simp [CallPhase.notified]

omit [DecidableEq ThreadId] in
theorem awaitIdle_eq (s : LocalRunner ι ThreadId) (i : ι) :
    ∃ p : CallPhase, p.entryId? = none ∧ s.awaitIdle i = s.goto i p := by
  unfold awaitIdle
  split
  · exact ⟨.idle,rfl,rfl⟩
  · exact ⟨.parked,rfl,rfl⟩

/-- The lock table says which entries have users, and the entries say how many and who is in. -/
structure EntriesKept (call : ι → RunnerCall ThreadId) (s : LocalRunner ι ThreadId) : Prop where
  users : ∀ e, CountOf (s.entries e).users (fun p => p.entryId? = some e) s.calls
  locked : ∀ e, HeldBy (s.entries e).locked (fun p => p = .body e) s.calls
  listed : ∀ i e, (s.calls i).entryId? = some e →
    ∃ threadId, (call i).threadId? = some threadId ∧ s.threadLocks.lookup threadId = some e
  used : ∀ threadId e, s.threadLocks.lookup threadId = some e → 0 < (s.entries e).users
  single : ∀ t t' e, s.threadLocks.lookup t = some e → s.threadLocks.lookup t' = some e → t = t'
  fresh : ∀ threadId e, s.threadLocks.lookup threadId = some e → e < s.nextEntry

namespace EntriesKept

omit [DecidableEq ι] in
theorem opened : EntriesKept call (opened : LocalRunner ι ThreadId) := by
  constructor
  · exact fun e => CountOf.none_in fun i => by simp [LocalRunner.opened,CallPhase.entryId?]
  · intro e
    constructor <;> simp [LocalRunner.opened]
  all_goals simp [LocalRunner.opened,CallPhase.entryId?]

omit [DecidableEq ι] in
/-- A call of an entry has the thread that the entry is listed under. -/
theorem thread_of_entry (h : EntriesKept call s) {e : EntryId} {threadId : ThreadId}
    (hi : (s.calls i).entryId? = some e) (ht : (call i).threadId? = some threadId) :
    s.threadLocks.lookup threadId = some e := by
  obtain ⟨t,ht',hlookup⟩ := h.listed i e hi
  rw [ht] at ht'
  cases ht'
  exact hlookup

omit [DecidableEq ι] in
/-- Nothing refers to an entry that has not been created yet. -/
theorem entry_lt (h : EntriesKept call s) {e : EntryId} (hi : (s.calls i).entryId? = some e) :
    e < s.nextEntry := by
  obtain ⟨t,_,hlookup⟩ := h.listed i e hi
  exact h.fresh t e hlookup

/-- A step that neither moves a caller into or out of the users nor touches the table. -/
theorem outside (h : EntriesKept call s) (hentries : s'.entries = s.entries)
    (htable : s'.threadLocks = s.threadLocks) (hnext : s'.nextEntry = s.nextEntry)
    {p : CallPhase} (hcalls : s'.calls = Function.update s.calls i p)
    (hi : (s.calls i).entryId? = none) (hp : p.entryId? = none) : EntriesKept call s' := by
  have hbody : ∀ {q : CallPhase} (e : EntryId), q.entryId? = none → ¬ q = .body e := by
    rintro q e hq rfl
    cases hq
  constructor
  · intro e
    rw [hentries,hcalls]
    exact (h.users e).keep (by simp [hi,hp])
  · intro e
    rw [hentries,hcalls]
    exact (h.locked e).keep (iff_of_false (hbody e hp) (hbody e hi))
  · intro j e hj
    rw [htable]
    rw [hcalls] at hj
    by_cases hji : j = i
    · rw [hji,Function.update_self,hp] at hj
      cases hj
    · rw [Function.update_of_ne hji] at hj
      exact h.listed j e hj
  · rw [htable,hentries]
    exact h.used
  · rw [htable]
    exact h.single
  · rw [htable,hnext]
    exact h.fresh

/-- One more user of a listed entry. -/
theorem joined (h : EntriesKept call s) {threadId : ThreadId} {e : EntryId}
    (hi : s.calls i = .called) (ht : (call i).threadId? = some threadId)
    (hlookup : s.threadLocks.lookup threadId = some e) :
    EntriesKept call ((s.setEntry e ⟨(s.entries e).locked,(s.entries e).users+1⟩).goto i
      (.counted e)) := by
  constructor
  · intro e'
    by_cases he : e' = e
    · subst he
      simpa [goto,setEntry] using (h.users e').join (i := i) (p := .counted e')
        (by simp [hi,CallPhase.entryId?]) rfl
    · simpa [goto,setEntry,he] using (h.users e').keep (i := i) (p := .counted e)
        (by simp [hi,CallPhase.entryId?,Ne.symm he])
  · intro e'
    have hlocked : ((s.setEntry e ⟨(s.entries e).locked,(s.entries e).users+1⟩).entries
        e').locked = (s.entries e').locked := by
      by_cases he : e' = e
      · subst he
        simp [setEntry]
      · simp [setEntry,he]
    show HeldBy (((s.setEntry e _).entries e').locked) _ _
    rw [hlocked]
    exact (h.locked e').keep (by simp [hi])
  · intro j e' hj
    by_cases hji : j = i
    · subst hji
      simp only [goto,Function.update_self,CallPhase.entryId?,Option.some.injEq] at hj
      subst hj
      exact ⟨threadId,ht,hlookup⟩
    · simp only [goto,setEntry,Function.update_of_ne hji] at hj
      exact h.listed j e' hj
  · intro t e' ht'
    by_cases he : e' = e
    · subst he
      simp [goto,setEntry]
    · simpa [goto,setEntry,he] using h.used t e' ht'
  · exact h.single
  · exact h.fresh

/-- A new entry with its first user. -/
theorem created (h : EntriesKept call s) {threadId : ThreadId} (hi : s.calls i = .called)
    (ht : (call i).threadId? = some threadId) (hlookup : s.threadLocks.lookup threadId = none) :
    EntriesKept call (({s with
      threadLocks := s.threadLocks.insert threadId s.nextEntry
      nextEntry := s.nextEntry+1}.setEntry s.nextEntry ⟨false,1⟩).goto i
        (.counted s.nextEntry)) := by
  have hunused : ∀ j, (s.calls j).entryId? ≠ some s.nextEntry :=
    fun j hj => (h.entry_lt hj).false
  have hold : ∀ {t e}, t ≠ threadId →
      (s.threadLocks.insert threadId s.nextEntry).lookup t = some e → e < s.nextEntry := by
    intro t e hne ht'
    rw [AList.lookup_insert_ne hne] at ht'
    exact h.fresh t e ht'
  have hnew : ∀ {e}, (s.threadLocks.insert threadId s.nextEntry).lookup threadId = some e →
      e = s.nextEntry := by
    intro e he
    rw [AList.lookup_insert] at he
    exact (Option.some.inj he).symm
  have hzero : CountOf 0 (fun p => p.entryId? = some s.nextEntry) s.calls := CountOf.none_in hunused
  constructor
  · intro e
    by_cases he : e = s.nextEntry
    · subst he
      simpa [goto,setEntry] using hzero.join (hunused i) (p := .counted s.nextEntry) rfl
    · simpa [goto,setEntry,he] using (h.users e).keep (i := i) (p := .counted s.nextEntry)
        (by simp [hi,CallPhase.entryId?,Ne.symm he])
  · intro e
    by_cases he : e = s.nextEntry
    · subst he
      have hfree : ∀ j, ¬ s.calls j = .body s.nextEntry := by
        intro j hj
        exact hunused j (by rw [hj]; rfl)
      have hnone : HeldBy false (fun p => p = .body s.nextEntry) s.calls :=
        ⟨by simp [hfree],fun j k hj => absurd hj (hfree j)⟩
      simpa [goto,setEntry] using hnone.keep (i := i) (p := .counted s.nextEntry) (by simp [hi])
    · simpa [goto,setEntry,he] using (h.locked e).keep (i := i) (p := .counted s.nextEntry)
        (by simp [hi])
  · intro j e hj
    by_cases hji : j = i
    · subst hji
      simp only [goto,Function.update_self,CallPhase.entryId?,Option.some.injEq] at hj
      subst hj
      exact ⟨threadId,ht,AList.lookup_insert _⟩
    · simp only [goto,setEntry,Function.update_of_ne hji] at hj
      obtain ⟨t,htj,ht'⟩ := h.listed j e hj
      have hne : t ≠ threadId := by
        rintro rfl
        rw [hlookup] at ht'
        cases ht'
      exact ⟨t,htj,(AList.lookup_insert_ne hne).trans ht'⟩
  · intro t e ht'
    by_cases hne : t = threadId
    · subst hne
      rw [hnew ht']
      simp [goto,setEntry]
    · have hlt := hold hne ht'
      simp only [goto,setEntry,AList.lookup_insert_ne hne] at ht' ⊢
      rw [Function.update_of_ne hlt.ne]
      exact h.used t e ht'
  · intro t t' e h₁ h₂
    by_cases ht₁ : t = threadId
    · by_cases ht₂ : t' = threadId
      · rw [ht₁,ht₂]
      · subst ht₁
        exact absurd (hnew h₁) (hold ht₂ h₂).ne
    · by_cases ht₂ : t' = threadId
      · subst ht₂
        exact absurd (hnew h₂) (hold ht₁ h₁).ne
      · simp only [goto,setEntry,AList.lookup_insert_ne ht₁,AList.lookup_insert_ne ht₂] at h₁ h₂
        exact h.single t t' e h₁ h₂
  · intro t e ht'
    show e < s.nextEntry+1
    by_cases hne : t = threadId
    · subst hne
      rw [hnew ht']
      exact Nat.lt_succ_self _
    · exact (hold hne ht').trans (Nat.lt_succ_self _)

/-- A user takes the lock of its entry, or gives it back. -/
theorem relocked (h : EntriesKept call s) {e : EntryId} {p : CallPhase} {locked : Bool}
    (hi : (s.calls i).entryId? = some e) (hp : p.entryId? = some e)
    (hlocked : HeldBy locked (fun p => p = .body e) (Function.update s.calls i p)) :
    EntriesKept call ((s.setEntry e ⟨locked,(s.entries e).users⟩).goto i p) := by
  have husers : ∀ e', ((s.setEntry e ⟨locked,(s.entries e).users⟩).entries e').users =
      (s.entries e').users := by
    intro e'
    by_cases he : e' = e
    · subst he
      simp [setEntry]
    · simp [setEntry,he]
  constructor
  · intro e'
    show CountOf (((s.setEntry e _).entries e').users) _ _
    rw [husers]
    exact (h.users e').keep (by simp [hi,hp])
  · intro e'
    by_cases he : e' = e
    · subst he
      simpa [goto,setEntry] using hlocked
    · have hother : ∀ {q : CallPhase}, q.entryId? = some e → ¬ q = .body e' := by
        rintro q hq rfl
        exact he (Option.some.inj hq)
      simpa [goto,setEntry,he] using (h.locked e').keep (i := i)
        (iff_of_false (hother hp) (hother hi))
  · intro j e' hj
    by_cases hji : j = i
    · subst hji
      simp only [goto,Function.update_self,hp] at hj
      exact h.listed j e' (hi.trans hj)
    · simp only [goto,setEntry,Function.update_of_ne hji] at hj
      exact h.listed j e' hj
  · intro t e' ht
    show 0 < ((s.setEntry e _).entries e').users
    rw [husers]
    exact h.used t e' ht
  · exact h.single
  · exact h.fresh

/-- A user leaves; the table loses at most entries that have no users left. -/
theorem left (h : EntriesKept call s) {e : EntryId} {raised : Bool} {answer : CallAnswer}
    (table : AList fun _ : ThreadId => EntryId) (hi : s.calls i = .leaving e raised)
    (hsub : ∀ t e', table.lookup t = some e' → s.threadLocks.lookup t = some e')
    (hstays : ∀ t e', s.threadLocks.lookup t = some e' →
      (table.lookup t = some e' ↔ ¬ (e' = e ∧ (s.entries e).users-1 = 0))) :
    EntriesKept call ({s with threadLocks := table}.setEntry e
      ⟨(s.entries e).locked,(s.entries e).users-1⟩ |>.goto i (.ended answer)) := by
  have hcount : CountOf ((s.entries e).users-1) (fun p => p.entryId? = some e)
      (Function.update s.calls i (.ended answer)) :=
    (h.users e).leave (by rw [hi]; rfl) (by simp [CallPhase.entryId?])
  constructor
  · intro e'
    by_cases he : e' = e
    · subst he
      simpa [goto,setEntry] using hcount
    · simpa [goto,setEntry,he] using (h.users e').keep (i := i) (p := .ended answer)
        (by simp [hi,CallPhase.entryId?,Ne.symm he])
  · intro e'
    have hlocked : ((s.setEntry e ⟨(s.entries e).locked,(s.entries e).users-1⟩).entries
        e').locked = (s.entries e').locked := by
      by_cases he : e' = e
      · subst he
        simp [setEntry]
      · simp [setEntry,he]
    show HeldBy (((s.setEntry e _).entries e').locked) _ _
    rw [hlocked]
    exact (h.locked e').keep (by simp [hi])
  · intro j e' hj
    by_cases hji : j = i
    · subst hji
      simp [goto,CallPhase.entryId?] at hj
    · have hother : (s.calls j).entryId? = some e' := by
        simpa [goto,setEntry,hji] using hj
      obtain ⟨t,htj,ht⟩ := h.listed j e' hother
      refine ⟨t,htj,(hstays t e' ht).mpr ?_⟩
      rintro ⟨rfl,hzero⟩
      have hpos : 0 < (s.entries e').users-1 :=
        hcount.pos_iff.mpr ⟨j,by simpa [hji] using hother⟩
      omega
  · intro t e' ht
    have hold := hsub t e' ht
    have hkept := (hstays t e' hold).mp ht
    by_cases he : e' = e
    · subst he
      simp only [goto,setEntry,Function.update_self]
      exact Nat.pos_of_ne_zero fun hzero => hkept ⟨rfl,hzero⟩
    · simpa [goto,setEntry,he] using h.used t e' hold
  · exact fun t t' e' h₁ h₂ => h.single t t' e' (hsub t e' h₁) (hsub t' e' h₂)
  · exact fun t e' ht => h.fresh t e' (hsub t e' ht)

omit [DecidableEq ι] in
theorem notified (h : EntriesKept call s) :
    EntriesKept call {s with calls := fun j => (s.calls j).notified} := by
  constructor
  · exact fun e => (h.users e).congr fun j => by simp
  · exact fun e => (h.locked e).congr fun j => by simp
  · intro j e hj
    exact h.listed j e (by simpa using hj)
  · exact h.used
  · exact h.single
  · exact h.fresh

theorem released (h : EntriesKept call s) {threadId : ThreadId} {e : EntryId} {raised : Bool}
    (answer : CallAnswer) (hi : s.calls i = .leaving e raised)
    (ht : (call i).threadId? = some threadId)
    (hlast : ¬ ((s.entries e).users-1 = 0 ∧ s.threadLocks.lookup threadId = some e)) :
    EntriesKept call ((s.setEntry e ⟨(s.entries e).locked,(s.entries e).users-1⟩).goto i
      (.ended answer)) := by
  have hlookup := h.thread_of_entry (by rw [hi]; rfl) ht
  refine h.left s.threadLocks hi (fun _ _ h => h) fun t e' ht' => iff_of_true ht' ?_
  exact fun hzero => hlast ⟨hzero.2,hlookup⟩

theorem deleted (h : EntriesKept call s) {threadId : ThreadId} {e : EntryId} {raised : Bool}
    (answer : CallAnswer) (hi : s.calls i = .leaving e raised)
    (hlast : (s.entries e).users-1 = 0) (hlookup : s.threadLocks.lookup threadId = some e) :
    EntriesKept call (((s.setEntry e ⟨(s.entries e).locked,(s.entries e).users-1⟩).goto i
      (.ended answer)).delete threadId) := by
  refine (h.left (s.threadLocks.erase threadId) hi ?_ ?_).notified
  · intro t e' ht
    by_cases hne : t = threadId
    · rw [hne,AList.lookup_erase] at ht
      cases ht
    · rwa [AList.lookup_erase_ne hne] at ht
  · intro t e' ht
    by_cases hne : t = threadId
    · subst hne
      rw [hlookup] at ht
      cases ht
      simp [AList.lookup_erase,hlast]
    · rw [AList.lookup_erase_ne hne]
      refine iff_of_true ht ?_
      rintro ⟨rfl,_⟩
      exact hne (h.single t threadId e' ht hlookup)

theorem moves (h : EntriesKept call s) (hm : Moves call s i s') : EntriesKept call s' := by
  cases hm with
  | turnedAway answer hi ht => exact h.outside rfl rfl rfl rfl (by rw [hi]; rfl) rfl
  | joined hi ht hopen hlookup => exact h.joined hi ht hlookup
  | created hi ht hopen hlookup => exact h.created hi ht hlookup
  | locked hi hfree =>
    refine h.relocked (by rw [hi]; rfl) rfl ?_
    have hlock := h.locked
    exact (hfree ▸ hlock _).take rfl
  | unlocked raised hi =>
    exact h.relocked (by rw [hi]; rfl) rfl ((h.locked _).drop hi (by simp))
  | released answer hi ht hlast => exact h.released answer hi ht hlast
  | deleted answer hi ht hlast hlookup => exact h.deleted answer hi hlast hlookup
  | tookClose hi hcall hfree => exact h.outside rfl rfl rfl rfl (by rw [hi]; rfl) rfl
  | foundClosed hi hclosed => exact h.outside rfl rfl rfl rfl (by rw [hi]; rfl) rfl
  | marked hi hopen =>
    obtain ⟨p,hp,heq⟩ := awaitIdle_eq {s with closed := true} i
    rw [heq]
    exact h.outside rfl rfl rfl rfl (by rw [hi]; rfl) hp
  | looked hi =>
    obtain ⟨p,hp,heq⟩ := awaitIdle_eq s i
    rw [heq]
    exact h.outside rfl rfl rfl rfl (by rw [hi]; rfl) hp
  | calledRuntime hi => exact h.outside rfl rfl rfl rfl (by rw [hi]; rfl) rfl
  | finished answer hi => exact h.outside rfl rfl rfl rfl (by rw [hi]; rfl) rfl

end EntriesKept

end LocalRunner
end VermayAgent
