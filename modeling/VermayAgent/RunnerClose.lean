import VermayAgent.ThreadLocks

/-! The close of the local task runner, and what all its callers together can do.
The holder of the close lock marks the runner as closed, waits until the lock table is empty and
closes the runtime; whoever closes afterwards finds that done. -/
namespace VermayAgent
open Library
namespace LocalRunner

variable {ι ThreadId : Type} [DecidableEq ι] [DecidableEq ThreadId]
  {call : ι → RunnerCall ThreadId} {s s' : LocalRunner ι ThreadId} {i : ι}

theorem keys_eq_nil {table : AList fun _ : ThreadId => EntryId} :
    table.keys = [] ↔ ∀ threadId, table.lookup threadId = none := by
  simp only [AList.lookup_eq_none,List.eq_nil_iff_forall_not_mem,AList.mem_keys]

/-- The close lock has at most one holder, and the runtime is closed once the table is empty. -/
structure ClosedOnce (call : ι → RunnerCall ThreadId) (s : LocalRunner ι ThreadId) : Prop where
  holder : HeldBy s.closeLock (fun p => p.holdsClose = true) s.calls
  caller : ∀ i, (s.calls i).holdsClose = true → call i = .close
  notYet : s.closed = false → s.runtimeCloses = 0
  pending : ∀ i, (s.calls i).pending = true → s.closed = true ∧ s.runtimeCloses = 0
  done : s.closed = true → (∃ i, (s.calls i).pending = true) ∨
    s.runtimeCloses = 1 ∧ s.threadLocks.keys = []
  idle : ∀ i, s.calls i = .idle → s.threadLocks.keys = []
  parked : ∀ i, s.calls i = .parked → s.threadLocks.keys ≠ []
  closing : ∀ i, s.calls i = .closingRuntime → s.closed = true
  answered : ∀ i, call i = .close → (s.calls i).hasEnded = true → s.runtimeCloses = 1

namespace ClosedOnce

omit [DecidableEq ι] [DecidableEq ThreadId] in
theorem opened : ClosedOnce call (opened : LocalRunner ι ThreadId) := by
  constructor
  · constructor <;> simp [LocalRunner.opened,CallPhase.holdsClose]
  all_goals simp [LocalRunner.opened,CallPhase.holdsClose,CallPhase.pending,CallPhase.hasEnded]

theorem holdsClose_of_pending {p : CallPhase} (h : p.pending = true) : p.holdsClose = true := by
  cases p <;> first | rfl | cases h

omit [DecidableEq ThreadId] in
/-- What a call on a thread does: nothing that the close can see, but for the table. -/
theorem threadCall (h : ClosedOnce call s) {p : CallPhase} {threadId : ThreadId}
    {table : AList fun _ : ThreadId => EntryId} {entries : EntryId → ThreadLockEntry}
    {nextEntry : EntryId} (ht : (call i).threadId? = some threadId)
    (hi : (s.calls i).holdsClose = false) (hp : p.holdsClose = false)
    (hempty : s.closed = true → s.threadLocks.keys = [] → table.keys = [])
    (hfull : ∀ j, s.calls j = .parked → table.keys ≠ []) :
    ClosedOnce call ({s with threadLocks := table,entries := entries,nextEntry := nextEntry}.goto i
      p) := by
  have hpending : ∀ {q : CallPhase}, q.holdsClose = false → ¬ q.pending = true := by
    intro q hq hpend
    rw [holdsClose_of_pending hpend] at hq
    cases hq
  have hother : ∀ {q : CallPhase} {j : ι}, q.holdsClose = true →
      Function.update s.calls i p j = q → s.calls j = q := by
    intro q j hq hj
    by_cases hji : j = i
    · subst hji
      rw [Function.update_self] at hj
      rw [hj,hq] at hp
      cases hp
    · rwa [Function.update_of_ne hji] at hj
  constructor
  · exact h.holder.keep (by simp [hi,hp])
  · exact fun j hj => h.caller j (by rwa [hother hj rfl])
  · exact h.notYet
  · intro j hj
    exact h.pending j (by rwa [hother (holdsClose_of_pending hj) rfl])
  · intro hclosed
    rcases h.done hclosed with ⟨j,hj⟩ | ⟨hone,hnil⟩
    · have hne : j ≠ i := by
        rintro rfl
        exact hpending hi hj
      exact .inl ⟨j,by simpa [goto,hne] using hj⟩
    · exact .inr ⟨hone,hempty hclosed hnil⟩
  · intro j hj
    have hidle := hother rfl hj
    have hclosed := (h.pending j (by rw [hidle]; rfl)).1
    exact hempty hclosed (h.idle j hidle)
  · exact fun j hj => hfull j (hother rfl hj)
  · exact fun j hj => h.closing j (hother rfl hj)
  · intro j hcall hj
    have hne : j ≠ i := by
      rintro rfl
      rw [hcall] at ht
      cases ht
    exact h.answered j hcall (by simpa [goto,hne] using hj)

omit [DecidableEq ι] [DecidableEq ThreadId] in
theorem notified (h : ClosedOnce call s) :
    ClosedOnce call {s with calls := fun j => (s.calls j).notified} := by
  have hpending : ∀ p : CallPhase, p.notified.pending = p.pending := by
    intro p
    cases p <;> rfl
  have hclose : ∀ p : CallPhase, p.notified.holdsClose = p.holdsClose := by
    intro p
    cases p <;> rfl
  have hsame : ∀ {p q : CallPhase}, q ≠ .woken → p.notified = q → p = q := by
    intro p q hq hp
    cases p with
    | parked => exact absurd hp.symm hq
    | _ => exact hp
  constructor
  · exact h.holder.congr fun j => by rw [hclose]
  · exact fun j hj => h.caller j ((hclose _).symm.trans hj)
  · exact h.notYet
  · intro j hj
    exact h.pending j ((hpending _).symm.trans hj)
  · intro hclosed
    rcases h.done hclosed with ⟨j,hj⟩ | hdone
    · exact .inl ⟨j,(hpending _).trans hj⟩
    · exact .inr hdone
  · exact fun j hj => h.idle j (hsame (by simp) hj)
  · intro j hj
    cases hp : s.calls j <;> simp [hp,CallPhase.notified] at hj
  · exact fun j hj => h.closing j (hsame (by simp) hj)
  · intro j hcall hj
    refine h.answered j hcall ?_
    cases hp : s.calls j <;> simp_all [CallPhase.notified,CallPhase.hasEnded]

omit [DecidableEq ThreadId] in
/-- What the holder of the close lock does: no other call is in the phases of a close. -/
theorem closeCall (h : ClosedOnce call s) {p : CallPhase} {closed closeLock : Bool} {closes : ℕ}
    (hcall : call i = .close) (honly : ∀ j, (s.calls j).holdsClose = true → j = i)
    (hlock : HeldBy closeLock (fun p => p.holdsClose = true) (Function.update s.calls i p))
    (hnotYet : closed = false → closes = 0)
    (hpending : p.pending = true → closed = true ∧ closes = 0)
    (hdone : closed = true → p.pending = true ∨ closes = 1 ∧ s.threadLocks.keys = [])
    (hidle : p = .idle → s.threadLocks.keys = []) (hparked : p = .parked → s.threadLocks.keys ≠ [])
    (hclosing : p = .closingRuntime → closed = true)
    (hkeeps : s.runtimeCloses = 1 → closes = 1) (hended : p.hasEnded = true → closes = 1) :
    ClosedOnce call ({s with
      closed := closed
      closeLock := closeLock
      runtimeCloses := closes}.goto i p) := by
  have hat : ∀ {j : ι}, (Function.update s.calls i p j).holdsClose = true → j = i := by
    intro j hj
    by_contra hne
    rw [Function.update_of_ne hne] at hj
    exact hne (honly j hj)
  have hself : ∀ {j : ι} {q : CallPhase}, q.holdsClose = true →
      Function.update s.calls i p j = q → p = q := by
    intro j q hq hj
    have hji : j = i := hat (by rw [hj]; exact hq)
    rwa [hji,Function.update_self] at hj
  constructor
  · exact hlock
  · intro j hj
    rw [hat hj]
    exact hcall
  · exact hnotYet
  · intro j hj
    exact hpending (by rwa [hself (holdsClose_of_pending hj) rfl])
  · intro hclosed
    rcases hdone hclosed with hpend | hdone
    · exact .inl ⟨i,by simpa [goto] using hpend⟩
    · exact .inr hdone
  · exact fun j hj => hidle (hself rfl hj)
  · exact fun j hj => hparked (hself rfl hj)
  · exact fun j hj => hclosing (hself rfl hj)
  · intro j hcall hj
    by_cases hji : j = i
    · subst hji
      exact hended (by simpa [goto] using hj)
    · exact hkeeps (h.answered j hcall (by simpa [goto,hji] using hj))

omit [DecidableEq ι] [DecidableEq ThreadId] in
/-- The holder of the close lock finds a closed runner done, unless it waits itself. -/
theorem done_of_holder (h : ClosedOnce call s) (hi : (s.calls i).holdsClose = true)
    (hpend : (s.calls i).pending = false) (hclosed : s.closed = true) :
    s.runtimeCloses = 1 ∧ s.threadLocks.keys = [] := by
  rcases h.done hclosed with ⟨j,hj⟩ | hdone
  · have hji : j = i := h.holder.single j i (holdsClose_of_pending hj) hi
    rw [hji,hpend] at hj
    cases hj
  · exact hdone

omit [DecidableEq ThreadId] in
theorem awaitIdle (h : ClosedOnce call s) {closed : Bool} (hi : (s.calls i).holdsClose = true)
    (hclosed : closed = true) (hzero : s.runtimeCloses = 0) :
    ClosedOnce call ({s with closed := closed}.awaitIdle i) := by
  have honly : ∀ j, (s.calls j).holdsClose = true → j = i := fun j hj => h.holder.single j i hj hi
  have hcall := h.caller i hi
  subst hclosed
  unfold LocalRunner.awaitIdle
  split
  · next hnil =>
    exact h.closeCall hcall honly (h.holder.keep (iff_of_true rfl hi)) (by simp) (by simp [hzero])
      (fun _ => .inl rfl) (fun _ => hnil) (by simp) (by simp) id (by simp [CallPhase.hasEnded])
  · next hfull =>
    exact h.closeCall hcall honly (h.holder.keep (iff_of_true rfl hi)) (by simp) (by simp [hzero])
      (fun _ => .inl rfl) (by simp) (fun _ => hfull) (by simp) id (by simp [CallPhase.hasEnded])

/-- The entry of a call that leaves keeps the table from being empty. -/
theorem deleted (h : ClosedOnce call s) {threadId : ThreadId} {entries : EntryId → ThreadLockEntry}
    (answer : CallAnswer) (hi : (s.calls i).holdsClose = false)
    (ht : (call i).threadId? = some threadId) :
    ClosedOnce call (({s with entries := entries}.goto i (.ended answer)).delete threadId) := by
  have hgoto : ({s with entries := entries}.goto i (.ended answer)).delete threadId =
      {{s with calls := fun j => (s.calls j).notified} with
        threadLocks := s.threadLocks.erase threadId
        entries := entries}.goto i (.ended answer) := by
    simp only [delete,goto,LocalRunner.mk.injEq,true_and]
    funext j
    by_cases hji : j = i
    · subst hji
      simp [CallPhase.notified]
    · simp [hji]
  rw [hgoto]
  refine h.notified.threadCall ht (by cases hp : s.calls i <;> simp_all [CallPhase.notified,
    CallPhase.holdsClose]) rfl ?_ ?_
  · intro _ hnil
    rw [keys_eq_nil] at hnil ⊢
    intro t
    by_cases hne : t = threadId
    · rw [hne,AList.lookup_erase]
    · rw [AList.lookup_erase_ne hne]
      exact hnil t
  · intro j hj
    cases hp : s.calls j <;> simp [hp,CallPhase.notified] at hj

theorem moves (h : ClosedOnce call s) (hk : EntriesKept call s) (hm : Moves call s i s') :
    ClosedOnce call s' := by
  have honly : (s.calls i).holdsClose = true → ∀ j, (s.calls j).holdsClose = true → j = i :=
    fun hi j hj => h.holder.single j i hj hi
  cases hm with
  | turnedAway answer hi ht =>
    exact h.threadCall ht (by rw [hi]; rfl) rfl (fun _ => id) h.parked
  | joined hi ht hopen hlookup =>
    exact h.threadCall ht (by rw [hi]; rfl) rfl (fun _ => id) h.parked
  | created hi ht hopen hlookup =>
    refine h.threadCall ht (by rw [hi]; rfl) rfl ?_ ?_
    · intro hclosed
      rw [hopen] at hclosed
      cases hclosed
    · intro j hj
      have hclosed := (h.pending j (by rw [hj]; rfl)).1
      rw [hopen] at hclosed
      cases hclosed
  | locked hi hfree =>
    obtain ⟨threadId,ht,_⟩ := hk.listed i _ (by rw [hi]; rfl)
    exact h.threadCall ht (by rw [hi]; rfl) rfl (fun _ => id) h.parked
  | unlocked raised hi =>
    obtain ⟨threadId,ht,_⟩ := hk.listed i _ (by rw [hi]; rfl)
    exact h.threadCall ht (by rw [hi]; rfl) rfl (fun _ => id) h.parked
  | released answer hi ht hlast =>
    exact h.threadCall ht (by rw [hi]; rfl) rfl (fun _ => id) h.parked
  | deleted answer hi ht hlast hlookup => exact h.deleted answer (by rw [hi]; rfl) ht
  | tookClose hi hcall hfree =>
    have hnone := fun j => (hfree ▸ h.holder).free j
    have hdone : s.closed = true → s.runtimeCloses = 1 ∧ s.threadLocks.keys = [] := by
      intro hclosed
      rcases h.done hclosed with ⟨j,hj⟩ | hdone
      · exact absurd (holdsClose_of_pending hj) (hnone j)
      · exact hdone
    exact h.closeCall hcall (fun j hj => absurd hj (hnone j)) ((hfree ▸ h.holder).take rfl) h.notYet
      (by simp [CallPhase.pending]) (fun hclosed => .inr (hdone hclosed)) (by simp) (by simp)
      (by simp) id (by simp [CallPhase.hasEnded])
  | foundClosed hi hclosed =>
    have hhold : (s.calls i).holdsClose = true := by rw [hi]; rfl
    have hdone := h.done_of_holder hhold (by rw [hi]; rfl) hclosed
    exact h.closeCall (h.caller i hhold) (honly hhold) (h.holder.drop hhold (by simp [CallPhase.holdsClose])) h.notYet
      (by simp [CallPhase.pending]) (fun _ => .inr hdone) (by simp) (by simp) (by simp) id
      (fun _ => hdone.1)
  | marked hi hopen => exact h.awaitIdle (by rw [hi]; rfl) rfl (h.notYet hopen)
  | looked hi =>
    have hpend := h.pending i (by rw [hi]; rfl)
    exact h.awaitIdle (by rw [hi]; rfl) hpend.1 hpend.2
  | calledRuntime hi =>
    have hhold : (s.calls i).holdsClose = true := by rw [hi]; rfl
    have hpend := h.pending i (by rw [hi]; rfl)
    exact h.closeCall (h.caller i hhold) (honly hhold) (h.holder.keep (iff_of_true rfl hhold)) (by simp [hpend.1])
      (by simp [CallPhase.pending]) (fun _ => .inr ⟨by rw [hpend.2],h.idle i hi⟩) (by simp)
      (by simp) (fun _ => hpend.1) (by simp [hpend.2]) (by simp [CallPhase.hasEnded])
  | finished answer hi =>
    have hhold : (s.calls i).holdsClose = true := by rw [hi]; rfl
    have hdone := h.done_of_holder hhold (by rw [hi]; rfl) (h.closing i hi)
    exact h.closeCall (h.caller i hhold) (honly hhold) (h.holder.drop hhold (by simp [CallPhase.holdsClose])) h.notYet
      (by simp [CallPhase.pending]) (fun _ => .inr hdone) (by simp) (by simp) (by simp) id
      (fun _ => hdone.1)

end ClosedOnce

section Runs

variable {labels : List (ι × Bool)}

theorem kept_of_exec (hk : EntriesKept call s) (hc : ClosedOnce call s)
    (h : exec (step call) labels s = some s') : EntriesKept call s' ∧ ClosedOnce call s' := by
  refine exec_invariant (I := fun s => EntriesKept call s ∧ ClosedOnce call s) ?_ ⟨hk,hc⟩ h
  intro l s s' hs hstep
  have hm := moves_of_step hstep
  exact ⟨hs.1.moves hm,hs.2.moves hs.1 hm⟩

theorem kept_of_run (h : exec (step call) labels opened = some s) :
    EntriesKept call s ∧ ClosedOnce call s := kept_of_exec .opened .opened h

/-- Once the runner is marked as closed, nobody becomes a user of an entry. -/
theorem Moves.afterClose (hm : Moves call s i s') (hclosed : s.closed = true) :
    s'.closed = true ∧ ∀ j e, (s'.calls j).entryId? = some e → (s.calls j).entryId? = some e := by
  have hmove : ∀ {p : CallPhase}, (∀ e, p.entryId? = some e → (s.calls i).entryId? = some e) →
      ∀ j e, (Function.update s.calls i p j).entryId? = some e → (s.calls j).entryId? = some e := by
    intro p hp j e hj
    by_cases hji : j = i
    · subst hji
      rw [Function.update_self] at hj
      exact hp e hj
    · rwa [Function.update_of_ne hji] at hj
  have hout : ∀ {p : CallPhase}, p.entryId? = none →
      ∀ e, p.entryId? = some e → (s.calls i).entryId? = some e := by
    intro p hp e he
    rw [hp] at he
    cases he
  have hopen : ¬ s.closed = false := by simp [hclosed]
  cases hm with
  | turnedAway | foundClosed | tookClose | calledRuntime | finished | released =>
    exact ⟨hclosed,hmove (hout rfl)⟩
  | joined _ _ h | created _ _ h | marked _ h => exact absurd h hopen
  | locked hi hfree =>
    refine ⟨hclosed,hmove fun e he => ?_⟩
    rw [hi]
    exact he
  | unlocked raised hi =>
    refine ⟨hclosed,hmove fun e he => ?_⟩
    rw [hi]
    exact he
  | deleted answer hi ht hlast hlookup =>
    refine ⟨hclosed,fun j e hj => hmove (hout (p := .ended answer) rfl) j e ?_⟩
    simpa [delete,goto,setEntry] using hj
  | looked hi =>
    obtain ⟨p,hp,heq⟩ := awaitIdle_eq s i
    rw [heq]
    exact ⟨hclosed,hmove (hout hp)⟩

theorem after_close (h : exec (step call) labels s = some s') (hclosed : s.closed = true) :
    s'.closed = true ∧ ∀ i e, (s'.calls i).entryId? = some e → (s.calls i).entryId? = some e := by
  refine exec_relates (R := fun s s' => s.closed = true → s'.closed = true ∧
    ∀ i e, (s'.calls i).entryId? = some e → (s.calls i).entryId? = some e) ?_ ?_ ?_ h hclosed
  · exact fun s hs => ⟨hs,fun _ _ he => he⟩
  · intro s₁ s₂ s₃ h₁ h₂ hs
    have h₁ := h₁ hs
    have h₂ := h₂ h₁.1
    exact ⟨h₂.1,fun i e he => h₁.2 i e (h₂.2 i e he)⟩
  · exact fun l s s' hstep => (moves_of_step hstep).afterClose

/-- Where a call can be that has no next step. -/
theorem stuck_of_step {raises : Bool} (hk : EntriesKept call s)
    (h : step call (i,raises) s = none) : (s.calls i).hasEnded = true ∨ s.calls i = .parked ∨
      (∃ e, s.calls i = .counted e ∧ (s.entries e).locked = true) ∨
      s.calls i = .called ∧ call i = .close ∧ s.closeLock = true := by
  unfold step at h
  cases hi : s.calls i with
  | called =>
    cases hcall : call i with
    | run | resume | resumeInput | discardCheckpoint =>
      simp only [hi,hcall] at h
      first | cases h | (split at h <;> cases h)
    | close =>
      simp only [hi,hcall] at h
      split at h
      · next hlock => exact .inr (.inr (.inr ⟨rfl,rfl,hlock⟩))
      · cases h
  | counted e =>
    simp only [hi] at h
    split at h
    · next hlock => exact .inr (.inr (.inl ⟨e,rfl,hlock⟩))
    · cases h
  | leaving e raised =>
    obtain ⟨threadId,ht,_⟩ := hk.listed i e (by rw [hi]; rfl)
    simp [hi,ht] at h
  | closing =>
    simp only [hi] at h
    split at h <;> cases h
  | body | woken | idle | closingRuntime => simp [hi] at h
  | parked => exact .inr (.inl rfl)
  | ended => exact .inl rfl

/-- A call on a thread waits for nothing but the body of another call on that thread. -/
theorem blocked_by_body (hk : EntriesKept call s) (hc : ClosedOnce call s) {threadId : ThreadId}
    {raises : Bool} (ht : (call i).threadId? = some threadId)
    (hi : (s.calls i).hasEnded = false) (h : step call (i,raises) s = none) :
    ∃ j e, j ≠ i ∧ (call j).threadId? = some threadId ∧ s.calls j = .body e := by
  rcases stuck_of_step hk h with hended | hparked | ⟨e,hcounted,hlocked⟩ | ⟨_,hclose,_⟩
  · rw [hi] at hended
    cases hended
  · have hclose := hc.caller i (by rw [hparked]; rfl)
    rw [hclose] at ht
    cases ht
  · obtain ⟨j,hj⟩ := (hk.locked e).taken.mp hlocked
    have hne : j ≠ i := by
      rintro rfl
      rw [hcounted] at hj
      cases hj
    obtain ⟨t,htj,hlookup⟩ := hk.listed j e (by rw [hj]; rfl)
    have hself := hk.thread_of_entry (by rw [hcounted]; rfl) ht
    rw [hk.single t threadId e hlookup hself] at htj
    exact ⟨j,e,hne,htj,hj⟩
  · rw [hclose] at ht
    cases ht

/-- While a call has not ended, some call has a next step. -/
theorem exists_step (hk : EntriesKept call s) (hc : ClosedOnce call s)
    (hi : (s.calls i).hasEnded = false) : ∃ l, step call l s ≠ none := by
  by_contra hnone
  have hstuck : ∀ l, step call l s = none := fun l => by_contra fun h => hnone ⟨l,h⟩
  have hbody : ∀ j e, s.calls j ≠ .body e := by
    intro j e hj
    rcases stuck_of_step hk (hstuck (j,false)) with h | h | ⟨e',h,_⟩ | ⟨h,_⟩ <;>
      simp [hj,CallPhase.hasEnded] at h
  -- without a body nobody waits for an entry, so nobody is listed and nobody waits for that
  have huser : ∀ j e, (s.calls j).entryId? ≠ some e := by
    intro j e hj
    rcases stuck_of_step hk (hstuck (j,false)) with h | h | ⟨e',h,hlocked⟩ | ⟨h,_⟩
    · cases hp : s.calls j <;> simp_all [CallPhase.hasEnded,CallPhase.entryId?]
    · simp [h,CallPhase.entryId?] at hj
    · obtain ⟨k,hk'⟩ := (hk.locked e').taken.mp hlocked
      exact hbody k e' hk'
    · simp [h,CallPhase.entryId?] at hj
  have hempty : s.threadLocks.keys = [] := by
    rw [keys_eq_nil]
    intro threadId
    cases hlookup : s.threadLocks.lookup threadId with
    | none => rfl
    | some e =>
      obtain ⟨j,hj⟩ := (hk.users e).pos_iff.mp (hk.used threadId e hlookup)
      exact absurd hj (huser j e)
  have hparked : ∀ j, s.calls j ≠ .parked := fun j hj => hc.parked j hj hempty
  rcases stuck_of_step hk (hstuck (i,false)) with h | h | ⟨e,h,_⟩ | ⟨_,_,hlock⟩
  · rw [hi] at h
    cases h
  · exact hparked i h
  · exact huser i e (by rw [h]; rfl)
  · obtain ⟨j,hj⟩ := hc.holder.taken.mp hlock
    rcases stuck_of_step hk (hstuck (j,false)) with h | h | ⟨e,h,_⟩ | ⟨h,_⟩
    · cases hp : s.calls j <;> simp_all [CallPhase.hasEnded,CallPhase.holdsClose]
    · exact hparked j h
    · exact huser j e (by rw [h]; rfl)
    · simp [h,CallPhase.holdsClose] at hj

/-- How many steps a call can take yet, when nobody wakes it. -/
def stepsLeft : CallPhase → ℕ
  | .called => 6
  | .closing => 5
  | .counted _ | .woken => 4
  | .body _ | .parked => 3
  | .leaving _ _ | .idle => 2
  | .closingRuntime => 1
  | .ended _ => 0

theorem stepsLeft_notified (p : CallPhase) :
    stepsLeft p.notified = stepsLeft p + if p = .parked then 1 else 0 := by
  cases p <;> simp [CallPhase.notified,stepsLeft]

omit [DecidableEq ι] [DecidableEq ThreadId] in
theorem sum_parked_le (hc : ClosedOnce call s) (A : Finset ι) :
    ∑ j ∈ A, (if s.calls j = .parked then 1 else 0) ≤ 1 := by
  rw [Finset.sum_boole]
  simp only [Nat.cast_id,Finset.card_le_one,Finset.mem_filter]
  rintro j ⟨_,hj⟩ k ⟨_,hk⟩
  exact hc.holder.single j k (by rw [hj]; rfl) (by rw [hk]; rfl)

/-- Each step uses up one that was left, and a wake-up costs less than the end that caused it. -/
theorem sum_stepsLeft_lt (hc : ClosedOnce call s) (hm : Moves call s i s') {A : Finset ι}
    (hi : i ∈ A) : ∑ j ∈ A, stepsLeft (s'.calls j) < ∑ j ∈ A, stepsLeft (s.calls j) := by
  have hmove : ∀ {p : CallPhase}, stepsLeft p < stepsLeft (s.calls i) →
      ∑ j ∈ A, stepsLeft (Function.update s.calls i p j) < ∑ j ∈ A, stepsLeft (s.calls j) := by
    intro p hp
    refine Finset.sum_lt_sum (fun j _ => ?_) ⟨i,hi,by rwa [Function.update_self]⟩
    by_cases hji : j = i
    · subst hji
      rw [Function.update_self]
      exact hp.le
    · rw [Function.update_of_ne hji]
  cases hm with
  | turnedAway _ hi | joined hi | created hi | locked hi | unlocked _ hi | released _ hi
    | tookClose hi | foundClosed hi | calledRuntime hi | finished _ hi =>
    exact hmove (by rw [hi]; simp [stepsLeft])
  | marked hi | looked hi =>
    unfold awaitIdle
    split <;> exact hmove (by rw [hi]; simp [stepsLeft])
  | deleted answer hgo ht hlast hlookup =>
    have hle : ∀ j ∈ A, stepsLeft (Function.update s.calls i (.ended answer) j).notified +
        (if j = i then 2 else 0) ≤
          stepsLeft (s.calls j) + if s.calls j = .parked then 1 else 0 := by
      intro j _
      rw [stepsLeft_notified]
      by_cases hji : j = i
      · subst hji
        simp [hgo,stepsLeft]
      · simp [hji]
    have hsum := Finset.sum_le_sum hle
    rw [Finset.sum_add_distrib,Finset.sum_add_distrib,Finset.sum_ite_eq',if_pos hi] at hsum
    have hone := sum_parked_le hc A
    show ∑ j ∈ A, stepsLeft (Function.update s.calls i (.ended answer) j).notified < _
    omega

/-- A run of the calls of `A` has as many steps as its calls had left, at the most. -/
theorem length_add_stepsLeft_le {A : Finset ι} (hk : EntriesKept call s) (hc : ClosedOnce call s)
    (h : exec (step call) labels s = some s') (hA : ∀ l ∈ labels, l.1 ∈ A) :
    labels.length + ∑ j ∈ A, stepsLeft (s'.calls j) ≤ ∑ j ∈ A, stepsLeft (s.calls j) := by
  induction labels generalizing s with
  | nil =>
    cases h
    simp
  | cons l labels ih =>
    obtain ⟨s₁,hstep,hrest⟩ := exec_cons_eq_some.mp h
    have hm := moves_of_step hstep
    have hlt := sum_stepsLeft_lt hc hm (hA l List.mem_cons_self)
    have hle := ih (hk.moves hm) (hc.moves hk hm) hrest
      fun l' hl' => hA l' (List.mem_cons_of_mem l hl')
    rw [List.length_cons]
    omega

/-- For every interleaving of any number of callers: on one thread at most one is in its body, an
entry is listed as long as it has users, a call on a thread waits for a body on that thread only,
and nobody is admitted once the runner is marked as closed. The runtime is closed at most once and
without a body, it has been when a close ends, and no schedule keeps the calls from ending. -/
theorem local_runner_exclusion (h : exec (step call) labels opened = some s) :
    (∀ i j e e' threadId, s.calls i = .body e → s.calls j = .body e' →
      (call i).threadId? = some threadId → (call j).threadId? = some threadId → i = j) ∧
    (∀ e, (∃ threadId, s.threadLocks.lookup threadId = some e) ↔ 0 < (s.entries e).users) ∧
    (∀ i threadId raises, (call i).threadId? = some threadId → (s.calls i).hasEnded = false →
      step call (i,raises) s = none →
      ∃ j e, j ≠ i ∧ (call j).threadId? = some threadId ∧ s.calls j = .body e) ∧
    (s.closed = true → ∀ labels' s', exec (step call) labels' s = some s' →
      s'.closed = true ∧ ∀ i e, s'.calls i = .body e → (s.calls i).entryId? = some e) ∧
    s.runtimeCloses ≤ 1 ∧
    (s.runtimeCloses = 1 → ∀ i e, s.calls i ≠ .body e) ∧
    (∀ i, call i = .close → (s.calls i).hasEnded = true → s.runtimeCloses = 1) ∧
    ((∀ l, step call l s = none) → ∀ i, (s.calls i).hasEnded = true) ∧
    ∀ A : Finset ι, (∀ l ∈ labels, l.1 ∈ A) → labels.length ≤ 6*A.card := by
  obtain ⟨hk,hc⟩ := kept_of_run h
  have hone : s.runtimeCloses = 0 ∨ s.runtimeCloses = 1 ∧ s.threadLocks.keys = [] := by
    cases hclosed : s.closed with
    | false => exact .inl (hc.notYet hclosed)
    | true =>
      rcases hc.done hclosed with ⟨i,hi⟩ | hdone
      · exact .inl (hc.pending i hi).2
      · exact .inr hdone
  refine ⟨?_,?_,?_,?_,?_,?_,hc.answered,?_,?_⟩
  · intro i j e e' threadId hi hj hti htj
    have hlookup := hk.thread_of_entry (by rw [hi]; rfl) hti
    rw [hk.thread_of_entry (by rw [hj]; rfl) htj] at hlookup
    cases hlookup
    exact (hk.locked e).single i j hi hj
  · intro e
    constructor
    · rintro ⟨threadId,hlookup⟩
      exact hk.used threadId e hlookup
    · intro hpos
      obtain ⟨i,hi⟩ := (hk.users e).pos_iff.mp hpos
      obtain ⟨threadId,_,hlookup⟩ := hk.listed i e hi
      exact ⟨threadId,hlookup⟩
  · exact fun i threadId raises ht hi hstep => blocked_by_body hk hc ht hi hstep
  · intro hclosed labels' s' h'
    have hafter := after_close h' hclosed
    exact ⟨hafter.1,fun i e hi => hafter.2 i e (by rw [hi]; rfl)⟩
  · omega
  · intro hcloses i e hi
    obtain ⟨threadId,_,hlookup⟩ := hk.listed i e (by rw [hi]; rfl)
    rcases hone with hzero | ⟨_,hnil⟩
    · omega
    · rw [keys_eq_nil.mp hnil] at hlookup
      cases hlookup
  · intro hstuck i
    by_contra hi
    obtain ⟨l,hl⟩ := exists_step hk hc (Bool.eq_false_of_not_eq_true hi)
    exact hl (hstuck l)
  · intro A hA
    have hle := length_add_stepsLeft_le (A := A) .opened .opened h hA
    have hstart : ∑ j ∈ A, stepsLeft ((opened : LocalRunner ι ThreadId).calls j) = 6*A.card := by
      simp [LocalRunner.opened,stepsLeft,mul_comm]
    omega

section Sample

/-- Two calls on one thread, and a close. -/
def sampleCalls : Fin 3 → RunnerCall ℕ
  | 0 => .run 7
  | 1 => .resume 7
  | 2 => .close

/-- The first call is in its body and the second one waits for it when the runner is closed. -/
def closedMeanwhile : List (Fin 3 × Bool) :=
  [(0,false),(0,false),(1,false),(2,false),(2,false)]

/-- The body of the first call raises; the second one goes on. -/
def secondBody : List (Fin 3 × Bool) := [(0,true),(1,false)]

def restOfCalls : List (Fin 3 × Bool) :=
  [(0,false),(1,false),(1,false),(2,false),(2,false),(2,false)]

theorem local_runner_exclusion_sample : ∃ s : LocalRunner (Fin 3) ℕ,
    exec (step sampleCalls) (closedMeanwhile ++ secondBody ++ restOfCalls) opened = some s ∧
    s.runtimeCloses = 1 ∧ ∀ i e, s.calls i ≠ .body e := by
  have hrun : exec (step sampleCalls) (closedMeanwhile ++ secondBody ++ restOfCalls) opened =
      some _ := rfl
  exact ⟨_,hrun,rfl,(local_runner_exclusion hrun).2.2.2.2.2.1 rfl⟩

/-- A body can start after the runner was marked as closed. -/
theorem body_starts_after_close :
    ¬ ∀ (labels labels' : List (Fin 3 × Bool)) (s s' : LocalRunner (Fin 3) ℕ),
      exec (step sampleCalls) labels opened = some s → s.closed = true →
      exec (step sampleCalls) labels' s = some s' →
      ∀ i e, s'.calls i = .body e → s.calls i = .body e := by
  intro h
  have hbody := h closedMeanwhile secondBody _ _ rfl rfl rfl 1 0 rfl
  exact absurd hbody (by decide)

end Sample
end Runs
end LocalRunner
end VermayAgent
