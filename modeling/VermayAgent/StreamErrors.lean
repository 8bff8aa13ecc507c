import VermayAgent.TaskStreams

/-! Errors after the terminal event of a task.
`message/stream` remembers that an end state has gone out and is silent about a later failure;
`tasks/resubscribe` reports every failure. -/
namespace VermayAgent
open Library Txn MainAgentStore

/-- The event shows the task in a terminal state. -/
def Emission.carriesTerminal (stream : StreamEnv) : Emission → Bool
  | .event payload => stream.isIn terminalStates (taskState payload)
  | .error _ => false

/-- A JSON-RPC error event, other than for an event that could not be projected. -/
def Emission.fails : Emission → Bool
  | .event _ => false
  | .error e => !e.isTaskEventProjectionError

namespace TaskStream

/-- No error event after one with a terminal state. -/
def SilentAfterTerminal (stream : StreamEnv) (s : TaskStream) : Prop :=
  s.emitted.Pairwise fun x y => x.carriesTerminal stream = true → y.fails = false

/-- What `message/stream` remembers of what it has emitted. -/
def Remembers (stream : StreamEnv) (s : TaskStream) : Prop :=
  ∀ x ∈ s.emitted, x.carriesTerminal stream = true → s.reachedEndState = true

instance (stream : StreamEnv) (s : TaskStream) : Decidable (s.SilentAfterTerminal stream) :=
  inferInstanceAs (Decidable (List.Pairwise _ _))

end TaskStream

section Facts

variable {core : CoreEnv} {env : LedgerEnv} {stream : StreamEnv} {method : StreamMethod}
  {requestId : Json} {s s' : TaskStream} {a : StreamStep}

theorem isStreamEndState_of_terminal {state : Json} (h : stream.isIn terminalStates state = true) :
    isStreamEndState stream state = true := by
  have hsub : ∀ state ∈ terminalStates, state ∈ streamEndStates := by decide
  cases state with
  | str state => exact decide_eq_true (hsub _ (of_decide_eq_true h))
  | _ => cases h

/-- What a step leaves of the emissions when nothing is raised. -/
inductive Emits (stream : StreamEnv) (s s' : TaskStream) : Prop
  | nothing (hemitted : s'.emitted = s.emitted) (hreached : s'.reachedEndState = s.reachedEndState)
  | event (payload : Json) (hemitted : s'.emitted = s.emitted++[.event payload])
      (hreached : s'.reachedEndState =
        (s.reachedEndState || isStreamEndState stream (taskState payload)))

theorem emitResult_emits (r : MessageResult) :
    Emits stream s (StreamStep.emitResult stream requestId r s) := by
  unfold StreamStep.emitResult
  cases r.taskId with
  | none => exact .event _ rfl rfl
  | some taskId => exact .event _ rfl rfl

theorem listEvents_emits (expired : Bool) (task : TaskRecord) :
    Emits stream s (StreamStep.listEvents expired task s) := by
  unfold StreamStep.listEvents
  dsimp only
  split
  · exact .nothing rfl rfl
  · exact .nothing rfl rfl

theorem projectNext_emits {event : TaskEventRecord} {task : TaskRecord}
    {todo : List TaskEventRecord} {projected : List Json} {last : Nat}
    (h : StreamStep.projectNext stream event task todo projected last s = .ok s') :
    Emits stream s s' := by
  unfold StreamStep.projectNext at h
  split at h
  · cases h
  · cases h
    exact .nothing rfl rfl
  · cases h
    exact .nothing rfl rfl

theorem checkTask_emits (h : StreamStep.checkTask stream s = .ok s') : Emits stream s s' := by
  unfold StreamStep.checkTask at h
  split at h
  · cases h
  · split at h
    · cases h
      exact .nothing rfl rfl
    · cases h
      exact .nothing rfl rfl

theorem call_emits (h : a.call core env stream method requestId s = some (.ok s')) :
    Emits stream s s' := by
  cases a with
  | commit txn =>
    simp only [StreamStep.call,StreamStep.commits,Option.map_eq_some_iff] at h
    obtain ⟨_,h,hs⟩ := h
    cases hs
    split at h
    · cases h
    · cases h
      exact .nothing rfl rfl
  | result r =>
    simp only [StreamStep.call] at h
    split at h
    · cases h
      exact emitResult_emits r
    · cases h
  | list expired =>
    simp only [StreamStep.call] at h
    split at h
    · cases h
      exact listEvents_emits expired _
    · cases h
  | project =>
    simp only [StreamStep.call] at h
    split at h
    · exact projectNext_emits (Option.some.inj h)
    · cases h
      exact .nothing rfl rfl
    · cases h
  | deliver =>
    simp only [StreamStep.call] at h
    split at h
    · cases h
      exact .event _ rfl rfl
    · cases h
      exact .nothing rfl rfl
    · cases h
  | check =>
    simp only [StreamStep.call] at h
    split at h
    · exact checkTask_emits (Option.some.inj h)
    · cases h
  | raises error =>
    simp only [StreamStep.call] at h
    split at h <;> cases h
  | exhausted | openTask | loop _ | refresh =>
    simp only [StreamStep.call] at h
    repeat' split at h
    all_goals
      cases h
    all_goals
      exact .nothing rfl rfl

theorem Emits.remembers (he : Emits stream s s') (hs : s.Remembers stream) :
    s'.Remembers stream := by
  intro x hx hterminal
  cases he with
  | nothing hemitted hreached =>
    rw [hemitted] at hx
    rw [hreached]
    exact hs x hx hterminal
  | event payload hemitted hreached =>
    rw [hemitted] at hx
    rw [hreached,Bool.or_eq_true]
    rcases List.mem_append.mp hx with hx | hx
    · exact .inl (hs x hx hterminal)
    · rw [List.mem_singleton.mp hx] at hterminal
      exact .inr (isStreamEndState_of_terminal hterminal)

theorem Emits.silent (he : Emits stream s s') (hs : s.SilentAfterTerminal stream) :
    s'.SilentAfterTerminal stream := by
  cases he with
  | nothing hemitted hreached =>
    unfold TaskStream.SilentAfterTerminal
    rw [hemitted]
    exact hs
  | event payload hemitted hreached =>
    unfold TaskStream.SilentAfterTerminal
    rw [hemitted]
    exact pairwise_snoc hs fun _ _ _ => rfl

/-- An error event keeps the silence exactly when no terminal state has gone out before it. -/
theorem silent_error_iff (hs : s.SilentAfterTerminal stream) (error : PyException) :
    (s.emitted++[Emission.error error]).Pairwise
        (fun x y => x.carriesTerminal stream = true → y.fails = false) ↔
      (error.isTaskEventProjectionError = false →
        ∀ x ∈ s.emitted, x.carriesTerminal stream = false) := by
  rw [List.pairwise_append]
  constructor
  · rintro ⟨_,_,hcross⟩ herror x hx
    have hfails := hcross x hx _ List.mem_cons_self
    by_contra hterminal
    have hsilent : (!error.isTaskEventProjectionError) = false :=
      hfails (eq_true_of_ne_false hterminal)
    rw [herror] at hsilent
    cases hsilent
  · intro hguard
    refine ⟨hs,List.pairwise_singleton _ _,fun x hx y hy hterminal => ?_⟩
    rw [List.mem_singleton.mp hy]
    change (!error.isTaskEventProjectionError) = false
    cases herror : error.isTaskEventProjectionError with
    | true => rfl
    | false =>
      rw [hguard herror x hx] at hterminal
      cases hterminal

theorem handle_remembers (error : PyException) (hs : s.Remembers stream) :
    (StreamStep.handle method s error).Remembers stream := by
  have hextended : ∀ x ∈ s.emitted++[Emission.error error], x.carriesTerminal stream = true →
      s.reachedEndState = true := by
    intro x hx hterminal
    rcases List.mem_append.mp hx with hx | hx
    · exact hs x hx hterminal
    · rw [List.mem_singleton.mp hx] at hterminal
      cases hterminal
  unfold StreamStep.handle
  cases method with
  | resubscribe => exact hextended
  | messageStream =>
    dsimp only
    split
    · exact hs
    · exact hextended

end Facts

/-- The steps that keep the silence of `tasks/resubscribe`: nothing raises once a terminal state
has gone out. -/
def StreamStep.RaiseGuard (core : CoreEnv) (env : LedgerEnv) (stream : StreamEnv)
    (method : StreamMethod) (requestId : Json) (a : StreamStep) (s : TaskStream) : Prop :=
  method = .resubscribe → ∀ error, a.call core env stream method requestId s = some (.error error) →
    error.isTaskEventProjectionError = false → ∀ x ∈ s.emitted, x.carriesTerminal stream = false

section Main

variable (core : CoreEnv) (env : LedgerEnv) (stream : StreamEnv) (method : StreamMethod)
  (requestId : Json)

theorem silent_step {a : StreamStep} {s s' : TaskStream} (hi : s.Remembers stream)
    (hs : s.SilentAfterTerminal stream)
    (h : a.step core env stream method requestId s = some s') :
    s'.SilentAfterTerminal stream ↔ a.RaiseGuard core env stream method requestId s := by
  unfold StreamStep.step at h
  split at h
  · cases h
  · rename_i hcall
    cases h
    have hguard : a.RaiseGuard core env stream method requestId s := by
      intro _ error herror
      rw [hcall] at herror
      cases herror
    exact ⟨fun _ => hguard,fun _ => (call_emits hcall).silent hs⟩
  · rename_i error hcall
    cases h
    cases method with
    | resubscribe =>
      refine (silent_error_iff hs error).trans ?_
      constructor
      · intro hsilent _ e he
        rw [hcall] at he
        cases he
        exact hsilent
      · intro hguard
        exact hguard rfl error hcall
    | messageStream =>
      refine ⟨fun _ hmethod => (nomatch hmethod),fun _ => ?_⟩
      unfold StreamStep.handle
      dsimp only
      split
      · exact hs
      · rename_i hspeaks
        refine (silent_error_iff hs error).mpr fun herror x hx => ?_
        -- an end state that had gone out would have silenced the handler
        by_contra hterminal
        exact hspeaks ⟨hi x hx (eq_true_of_ne_false hterminal),herror⟩

/-- Along a run of either stream, no error event follows one with a terminal state exactly when
no call of `tasks/resubscribe` raises after such an event. -/
theorem silent_after_terminal_iff (db : AgentDb) (taskId : TaskId) (afterEventId : Nat)
    (as : List StreamStep) :
    Always (StreamStep.step core env stream method requestId)
        (TaskStream.SilentAfterTerminal stream) as (.start db taskId afterEventId) ↔
      Guarded (StreamStep.step core env stream method requestId)
        (StreamStep.RaiseGuard core env stream method requestId) as
        (.start db taskId afterEventId) := by
  refine always_iff_guarded (I := TaskStream.Remembers stream) (fun a s s' hi h => ?_)
    (fun a s s' hi hs h => silent_step core env stream method requestId hi hs h)
    (fun a s h => ?_) (fun x hx => ?_) List.Pairwise.nil
  · unfold StreamStep.step at h
    split at h
    · cases h
    · rename_i hcall
      cases h
      exact (call_emits hcall).remembers hi
    · cases h
      exact handle_remembers _ hi
  · intro _ error herror
    rw [StreamStep.step,herror] at h
    cases h
  · cases hx

end Main

section Sample

/-- The events of the proxy go out; then the refresh of `tasks/get` finds the child agent gone. -/
def sampleRefreshFailure : List StreamStep :=
  [.openTask,.loop false,.refresh,.list false,.project,.project,.project,.deliver,.deliver,.deliver,
    .raises (.runtimeError "connection refused")]

/-- The error event of the failed refresh follows the completed task. -/
theorem error_after_terminal :
    ∃ s, exec (StreamStep.step sampleRemoteCore sampleEnv sampleStream .resubscribe (.num 1))
        sampleRefreshFailure (.start (CoreTxn.history sampleRemoteCore sampleEnv sampleDelegation
          AgentDb.empty) "task" 0) = some s ∧
      ¬ s.SilentAfterTerminal sampleStream := by
  have hspoken : (exec (StreamStep.step sampleRemoteCore sampleEnv sampleStream .resubscribe
      (.num 1)) sampleRefreshFailure (.start (CoreTxn.history sampleRemoteCore sampleEnv
        sampleDelegation AgentDb.empty) "task" 0)).map
        (fun s => decide (s.SilentAfterTerminal sampleStream)) = some false := by
    simp only [sampleDelegation,CoreTxn.history,List.foldl_cons,List.foldl_nil,CoreTxn.commit,
      CoreTxn.txn,MainAgentCore.completeRemoteTask,Option.filter_some,trimAscii_remoteTask]
    decide +kernel
  obtain ⟨s,hs,hsilent⟩ := Option.map_eq_some_iff.mp hspoken
  exact ⟨s,hs,of_decide_eq_false hsilent⟩

end Sample
end VermayAgent
