import Mathlib.Data.List.TakeWhile
import VermayAgent.RouterClassifier

/-! The texts that a decision comes of.
Each part of a payload is read or refused; the cases of the parts give those of a payload, and
these the cases of a text. -/
namespace VermayAgent
open Library

section PythonText

theorem stripText_ne_nil {c : CodePoint} (s : Text) (h : isSpacePoint c = false) :
    stripText (c::s) ≠ [] := by
  have hmem : c ∈ (c::s).reverse := List.mem_reverse.mpr List.mem_cons_self
  unfold stripText
  rw [List.dropWhile_cons_of_neg (by simp [h]),Ne,List.reverse_eq_nil_iff,
    List.dropWhile_eq_nil_iff]
  intro hall
  exact absurd (hall c hmem) (by simp [h])

theorem get_filter {members : RouterPayload} {key : Text} {name : String}
    (h : Text.of name ≠ key) :
    JsonValue.get (members.filter fun m => m.1 ≠ key) name = JsonValue.get members name := by
  unfold JsonValue.get
  congr 1
  induction members with
  | nil => rfl
  | cons m members ih =>
    rw [List.filter_cons,List.lookup_cons]
    split
    · rw [List.lookup_cons,ih]
    · rename_i hkey
      have hm : m.1 = key := by simpa using hkey
      rw [ih,hm,beq_false_of_ne h]

end PythonText

namespace DirectModelRouterModelClient

section Parts

/-- A confidence that is missing or a double. -/
inductive ReadsConfidence : PyJson → Option Float64 → Prop
  | missing : ReadsConfidence .null none
  | given {value : PyJson} {x : Float64} (h : toFloat value = some (.ok x)) :
    ReadsConfidence value (some x)

/-- An integer beyond the doubles. -/
def IsBeyond (value : PyJson) : Prop := toFloat value = some (.error .overflowError)

inductive ReadsReason : PyJson → Text → Prop
  | given (reason : Text) (h : stripText reason ≠ []) :
    ReadsReason (.string reason) (stripText reason)

inductive ReadsTarget : PyJson → Option Text → Prop
  | missing : ReadsTarget .null none
  | given (target : Text) : ReadsTarget (.string target) (some target)

/-- A remote agent is named by the id of an enabled agent. -/
def Addressed (agents : List RegisteredAgentRecord) (kind : RouteDecisionKind)
    (target : Option Text) : Prop :=
  kind = .remoteAgent → ∃ id, target = some id ∧ id ≠ [] ∧ isEnabledAgent agents id

theorem toFloat_error {value : PyJson} {e : RouterError} (h : toFloat value = some (.error e)) :
    IsBeyond value := by
  have he : e = .overflowError := by
    unfold toFloat at h
    split at h
    · cases h
    · split at h <;> cases h
      rfl
    · cases h
  rw [he] at h
  exact h

theorem toFloat_ofFloat (x : Float64) : toFloat (.number (.ofFloat x)) = some (.ok x) := by
  rcases x with _ | negative | _
  · rfl
  · cases negative <;> rfl
  · rfl

theorem ReadsConfidence.unique {value : PyJson} {c c' : Option Float64}
    (h : ReadsConfidence value c) (h' : ReadsConfidence value c') : c = c' := by
  cases h with
  | missing =>
    cases h' with
    | missing => rfl
    | given h' => cases h'
  | given h =>
    cases h' with
    | missing => cases h
    | given h' =>
      rw [h] at h'
      cases h'
      rfl

theorem ReadsConfidence.not_beyond {value : PyJson} {c : Option Float64}
    (h : ReadsConfidence value c) : ¬IsBeyond value := by
  intro hbeyond
  cases h with
  | missing => cases hbeyond
  | given h => cases h.symm.trans hbeyond

theorem ReadsTarget.unique {value : PyJson} {t t' : Option Text} (h : ReadsTarget value t)
    (h' : ReadsTarget value t') : t = t' := by
  cases h <;> cases h' <;> rfl

theorem readConfidence_cases (value : PyJson) :
    (∃ converted, readConfidence value = .ok converted ∧
      ((∃ c, ReadsConfidence value c ∧ convertConfidence converted = .ok c) ∨
        (IsBeyond value ∧ convertConfidence converted = .error .overflowError))) ∨
    ((∀ c, ¬ReadsConfidence value c) ∧ ¬IsBeyond value ∧
      ∃ m, readConfidence value = .error (.valueError m)) := by
  unfold readConfidence
  split
  · exact .inl ⟨none,rfl,.inl ⟨none,.missing,rfl⟩⟩
  · rename_i value hnull
    split
    · rename_i hnone
      refine .inr ⟨fun c h => ?_,fun h => ?_,_,rfl⟩
      · cases h with
        | missing => exact hnull rfl
        | given h => cases hnone.symm.trans h
      · cases hnone.symm.trans h
    · rename_i converted hsome
      refine .inl ⟨_,rfl,?_⟩
      cases converted with
      | ok x => exact .inl ⟨some x,.given hsome,rfl⟩
      | error e =>
        have hbeyond := toFloat_error hsome
        cases hsome.symm.trans hbeyond
        exact .inr ⟨hbeyond,rfl⟩

theorem readReason_cases (value : PyJson) :
    (∃ reason, ReadsReason value reason ∧ readReason value = .ok reason) ∨
    ((∀ reason, ¬ReadsReason value reason) ∧ ∃ m, readReason value = .error (.valueError m)) := by
  unfold readReason
  split
  · rename_i reason
    split
    · rename_i hblank
      refine .inr ⟨fun reason' h => ?_,_,rfl⟩
      cases h with
      | given _ h => exact h hblank
    · rename_i hreason
      exact .inl ⟨_,.given reason hreason,rfl⟩
  · rename_i hother
    refine .inr ⟨fun reason h => ?_,_,rfl⟩
    cases h with
    | given reason _ => exact hother reason rfl

theorem readTarget_cases (value : PyJson) :
    (∃ target, ReadsTarget value target ∧ readTarget value = .ok target) ∨
    ((∀ target, ¬ReadsTarget value target) ∧ ∃ m, readTarget value = .error (.valueError m)) := by
  unfold readTarget
  split
  · exact .inl ⟨_,.missing,rfl⟩
  · exact .inl ⟨_,.given _,rfl⟩
  · rename_i hnull hother
    refine .inr ⟨fun target h => ?_,_,rfl⟩
    cases h with
    | missing => exact hnull rfl
    | given target => exact hother target rfl

theorem checkAgent_cases (agents : List RegisteredAgentRecord) (kind : RouteDecisionKind)
    (target : Option Text) :
    (Addressed agents kind target ∧ checkAgent agents kind target = .ok ()) ∨
    (¬Addressed agents kind target ∧ ∃ m, checkAgent agents kind target = .error (.valueError m)) := by
  unfold checkAgent
  split
  · rename_i hkind
    split
    · refine .inr ⟨fun h => ?_,_,rfl⟩
      obtain ⟨id,hid,-⟩ := h hkind
      cases hid
    · refine .inr ⟨fun h => ?_,_,rfl⟩
      obtain ⟨id,hid,hne,-⟩ := h hkind
      cases hid
      exact hne rfl
    · rename_i target hne
      split
      · rename_i henabled
        exact .inl ⟨fun _ => ⟨target,rfl,fun h => hne h,henabled⟩,rfl⟩
      · rename_i hdisabled
        refine .inr ⟨fun h => ?_,_,rfl⟩
        obtain ⟨id,hid,-,henabled⟩ := h hkind
        cases hid
        exact hdisabled henabled
  · rename_i hkind
    exact .inl ⟨fun h => absurd h hkind,rfl⟩

end Parts

section Checks

variable (agents : List RegisteredAgentRecord) (kind : RouteDecisionKind) (payload : RouterPayload)

/-- The reason and the target of a payload fit its route. -/
structure Fits (target : Option Text) : Prop where
  reason : ∃ reason, ReadsReason (JsonValue.get payload "reason") reason
  reads : ReadsTarget (targetOf payload) target
  addressed : Addressed agents kind target

/-- What becomes of a payload whose route is known. -/
inductive Checked : Except RouterError RouterModelDecision → Prop
  | decided {target : Option Text} {decision : RouterModelDecision}
    (fits : Fits agents kind payload target)
    (confidence : ReadsConfidence (JsonValue.get payload "confidence") decision.confidence)
    (hkind : decision.kind = kind) (htarget : decision.targetAgentId = cleanTarget target) :
    Checked (.ok decision)
  | overflows {target : Option Text} (fits : Fits agents kind payload target)
    (beyond : IsBeyond (JsonValue.get payload "confidence")) : Checked (.error .overflowError)
  | refused {m : Text}
    (h : ∀ target confidence, Fits agents kind payload target →
      ¬ReadsConfidence (JsonValue.get payload "confidence") confidence)
    (h' : ∀ target, Fits agents kind payload target →
      ¬IsBeyond (JsonValue.get payload "confidence")) : Checked (.error (.valueError m))

variable {agents kind payload}

theorem Fits.unique {t t' : Option Text} (h : Fits agents kind payload t)
    (h' : Fits agents kind payload t') : t = t' := h.reads.unique h'.reads

/-- A payload without a reason, a target or an agent is refused. -/
theorem checked_of_not_fits (h : ∀ target, ¬Fits agents kind payload target) (m : Text) :
    Checked agents kind payload (.error (.valueError m)) :=
  .refused (fun target _ hfits => absurd hfits (h target)) fun target hfits =>
    absurd hfits (h target)

theorem checkedDecision_checked (schemaRepair : PyJson) (repaired : Bool) :
    Checked agents kind payload (checkedDecision agents kind payload schemaRepair repaired) := by
  unfold checkedDecision
  rcases readConfidence_cases (JsonValue.get payload "confidence") with
    ⟨converted,hread,hconfidence⟩ | ⟨h,h',m,hread⟩
  · rcases readReason_cases (JsonValue.get payload "reason") with
      ⟨reason,hreason,hok⟩ | ⟨hreason,m,herror⟩
    · rcases readTarget_cases (targetOf payload) with ⟨t,ht,htok⟩ | ⟨ht,m,herror⟩
      · rcases checkAgent_cases agents kind t with ⟨ha,haok⟩ | ⟨ha,m,herror⟩
        · have hfits : Fits agents kind payload t := ⟨⟨reason,hreason⟩,ht,ha⟩
          simp only [bind,Except.bind,hread,hok,htok,haok]
          rcases hconfidence with ⟨c,hc,hconvert⟩ | ⟨hbeyond,hconvert⟩
          · rw [hconvert]
            exact .decided hfits hc rfl rfl
          · rw [hconvert]
            exact .overflows hfits hbeyond
        · simp only [bind,Except.bind,hread,hok,htok,herror]
          exact checked_of_not_fits (fun t' hfits => ha (ht.unique hfits.reads ▸ hfits.addressed)) m
      · simp only [bind,Except.bind,hread,hok,herror]
        exact checked_of_not_fits (fun t hfits => ht t hfits.reads) m
    · simp only [bind,Except.bind,hread,herror]
      exact checked_of_not_fits (fun _ hfits => hfits.reason.elim hreason) m
  · simp only [bind,Except.bind,hread]
    exact .refused (fun _ c _ => h c) fun _ _ => h'

end Checks
section Payloads

/-- What no set can be asked for. -/
def IsContainer : PyJson → Prop
  | .array _ | .object _ => True
  | _ => False

theorem routeKind?_value (kind : RouteDecisionKind) :
    routeKind? (.string (Text.of kind.value)) = .ok (some kind) := by
  cases kind <;> rfl

theorem routeKind?_cases (route : PyJson) :
    (IsContainer route ∧ ∃ m, routeKind? route = .error (.typeError m)) ∨
    (∃ kind : RouteDecisionKind, route = .string (Text.of kind.value) ∧
      routeKind? route = .ok (some kind)) ∨
    (¬IsContainer route ∧ routeKind? route = .ok none) := by
  cases route with
  | array items => exact .inl ⟨trivial,_,rfl⟩
  | object members => exact .inl ⟨trivial,_,rfl⟩
  | string s =>
    cases hfind : routeKinds.find? fun kind => Text.of kind.value = s with
    | none => exact .inr (.inr ⟨id,by rw [routeKind?,hfind]⟩)
    | some kind =>
      have hs : Text.of kind.value = s := by simpa using List.find?_some hfind
      exact .inr (.inl ⟨kind,by rw [hs],by rw [routeKind?,hfind]⟩)
  | null => exact .inr (.inr ⟨id,rfl⟩)
  | bool b => exact .inr (.inr ⟨id,rfl⟩)
  | number n => exact .inr (.inr ⟨id,rfl⟩)

theorem routeKind?_not_container {route : PyJson} {kind : Option RouteDecisionKind}
    (h : routeKind? route = .ok kind) : ¬IsContainer route := by
  intro hcontainer
  cases route with
  | array items => cases h
  | object members => cases h
  | _ => exact hcontainer

theorem numericOrDefault_cases (value : PyJson) :
    (¬IsBeyond value ∧ ∃ c, numericOrDefault value = .ok c) ∨
    (IsBeyond value ∧ numericOrDefault value = .error .overflowError) := by
  unfold numericOrDefault
  cases h : toFloat value with
  | none => exact .inl ⟨fun hbeyond => (nomatch h.symm.trans hbeyond),_,rfl⟩
  | some converted =>
    cases converted with
    | ok x => exact .inl ⟨fun hbeyond => (nomatch h.symm.trans hbeyond),_,rfl⟩
    | error e =>
      have hbeyond := toFloat_error h
      cases h.symm.trans hbeyond
      exact .inr ⟨hbeyond,rfl⟩

/-- A label's reason, which is not blank. -/
def IsModelReason (reason : Text) : Prop := ∃ s, reason = Text.of "Model" ++ s

theorem IsModelReason.reads {reason : Text} (h : IsModelReason reason) :
    ∃ r, ReadsReason (.string reason) r := by
  obtain ⟨s,rfl⟩ := h
  exact ⟨_,.given _ (stripText_ne_nil _ rfl)⟩

theorem isModelReason_of {s : String} (h : "Model".toList <+: s.toList) :
    IsModelReason (Text.of s) := by
  obtain ⟨tail,htail⟩ := h
  exact ⟨tail.map .char,by rw [Text.of,← htail,List.map_append,Text.of]⟩

theorem IsModelReason.append {reason : Text} (h : IsModelReason reason) (t : Text) :
    IsModelReason (reason ++ t) := by
  obtain ⟨s,rfl⟩ := h
  exact ⟨s ++ t,List.append_assoc _ _ _⟩

theorem classifierPayloadReason_model (payload : RouterPayload) {fallback : Text}
    (h : IsModelReason fallback) : IsModelReason (classifierPayloadReason payload fallback) := by
  unfold classifierPayloadReason
  dsimp only
  generalize hused : List.findSome? _ _ = used
  cases used with
  | none => exact h
  | some reason =>
    obtain ⟨key,-,hkey⟩ := List.exists_of_findSome?_eq_some hused
    split at hkey
    · split at hkey
      · cases hkey
      · cases hkey
        exact ((isModelReason_of (by simp)).append _).append _
    · cases hkey

variable (client : DirectModelRouterModelClient) (agents : List RegisteredAgentRecord)
  (payload : RouterPayload)

/-- The decision that a payload is: as it stands, or by the label that it has elsewhere. -/
inductive Names : RouteDecisionKind → Option Float64 → Option Text → Prop
  | asItStands {kind : RouteDecisionKind} {c : Option Float64} {t : Option Text}
    (hroute : JsonValue.get payload "route" = .string (Text.of kind.value))
    (hfits : Fits agents kind payload t)
    (hconfidence : ReadsConfidence (JsonValue.get payload "confidence") c) : Names kind c t
  | labelled {kind : RouteDecisionKind} {reason : Text} {target : PyJson} {c : Float64}
    {t : Option Text} (hroute : routeKind? (JsonValue.get payload "route") = .ok none)
    (hlabel : client.classifierLabel payload = some (kind,reason,target))
    (hconfidence : numericOrDefault (JsonValue.get payload "confidence") = .ok c)
    (htarget : ReadsTarget (orJson target (JsonValue.get payload "target_agent_id")) t)
    (haddressed : Addressed agents kind t) : Names kind (some c) t

/-- The confidence has to be converted and is too large for it. -/
inductive Overflows : Prop
  | asItStands {kind : RouteDecisionKind} {t : Option Text}
    (hroute : JsonValue.get payload "route" = .string (Text.of kind.value))
    (hfits : Fits agents kind payload t)
    (hbeyond : IsBeyond (JsonValue.get payload "confidence"))
  | labelled (hroute : routeKind? (JsonValue.get payload "route") = .ok none)
    (hlabel : (client.classifierLabel payload).isSome)
    (hbeyond : IsBeyond (JsonValue.get payload "confidence"))

/-- What becomes of a payload. -/
inductive Decided : Except RouterError RouterModelDecision → Prop
  | unhashable {m : Text} (h : IsContainer (JsonValue.get payload "route")) :
    Decided (.error (.typeError m))
  | overflows (h : Overflows client agents payload) : Decided (.error .overflowError)
  | named {decision : RouterModelDecision} {t : Option Text}
    (h : Names client agents payload decision.kind decision.confidence t)
    (htarget : decision.targetAgentId = cleanTarget t) : Decided (.ok decision)
  | unnamed {m : Text} (h : ∀ kind c t, ¬Names client agents payload kind c t)
    (hroute : ¬IsContainer (JsonValue.get payload "route"))
    (hconfidence : ¬Overflows client agents payload) : Decided (.error (.valueError m))

variable {client agents payload}

theorem classifierLabel_model {kind : RouteDecisionKind} {reason : Text} {target : PyJson}
    (h : client.classifierLabel payload = some (kind,reason,target)) : IsModelReason reason := by
  unfold classifierLabel at h
  split at h
  · cases h
    exact classifierPayloadReason_model payload (isModelReason_of (by simp))
  · dsimp only at h
    split at h
    · cases h
      exact isModelReason_of (by simp)
    · split at h
      · cases h
        exact classifierPayloadReason_model payload (isModelReason_of (by simp))
      · cases h

section Repaired

variable (payload) (kind : RouteDecisionKind) (c : Float64) (reason : Text) (target : PyJson)

theorem repaired_route :
    JsonValue.get (mergePayload payload (repairedMembers kind c reason target)) "route" =
      .string (Text.of kind.value) := by
  simp [mergePayload,repairedMembers,schemaRepairKey,Text.of_injective.eq_iff]

theorem repaired_confidence :
    JsonValue.get (mergePayload payload (repairedMembers kind c reason target)) "confidence" =
      .number (.ofFloat c) := by
  simp [mergePayload,repairedMembers,schemaRepairKey,Text.of_injective.eq_iff]

theorem repaired_reason :
    JsonValue.get (mergePayload payload (repairedMembers kind c reason target)) "reason" =
      .string reason := by
  simp [mergePayload,repairedMembers,schemaRepairKey,Text.of_injective.eq_iff]

theorem repaired_target :
    targetOf (mergePayload payload (repairedMembers kind c reason target)) =
      orJson target (JsonValue.get payload "target_agent_id") := by
  simp [targetOf,mergePayload,repairedMembers,schemaRepairKey,Text.of_injective.eq_iff]

end Repaired

/-- A repaired payload fits if its target does. -/
theorem repaired_fits {kind : RouteDecisionKind} {c : Float64} {reason : Text} {target : PyJson}
    {t : Option Text} (hreason : IsModelReason reason) :
    Fits agents kind (mergePayload payload (repairedMembers kind c reason target)) t ↔
      ReadsTarget (orJson target (JsonValue.get payload "target_agent_id")) t ∧
        Addressed agents kind t := by
  constructor
  · intro h
    exact ⟨repaired_target payload kind c reason target ▸ h.reads,h.addressed⟩
  · rintro ⟨hreads,haddressed⟩
    exact ⟨repaired_reason payload kind c reason target ▸ hreason.reads,
      repaired_target payload kind c reason target ▸ hreads,haddressed⟩

theorem Names.not_container {kind : RouteDecisionKind} {c : Option Float64} {t : Option Text}
    (h : Names client agents payload kind c t) : ¬IsContainer (JsonValue.get payload "route") := by
  cases h with
  | asItStands hroute => exact routeKind?_not_container (hroute ▸ routeKind?_value kind)
  | labelled hroute => exact routeKind?_not_container hroute

theorem Overflows.not_container (h : Overflows client agents payload) :
    ¬IsContainer (JsonValue.get payload "route") := by
  cases h with
  | asItStands hroute => exact routeKind?_not_container (hroute ▸ routeKind?_value _)
  | labelled hroute => exact routeKind?_not_container hroute

theorem value_injective {kind kind' : RouteDecisionKind}
    (h : Text.of kind.value = Text.of kind'.value) : kind = kind' := by
  have hvalue := Text.of_injective h
  cases kind <;> cases kind' <;> first | rfl | simp [RouteDecisionKind.value] at hvalue

/-- A route with a label is read as it stands. -/
theorem route_not_both {kind : RouteDecisionKind}
    (h : JsonValue.get payload "route" = .string (Text.of kind.value))
    (h' : routeKind? (JsonValue.get payload "route") = .ok none) : False := by
  rw [h,routeKind?_value] at h'
  cases h'

theorem numericOrDefault_not_beyond {value : PyJson} {c : Float64}
    (h : numericOrDefault value = .ok c) : ¬IsBeyond value := by
  rcases numericOrDefault_cases value with ⟨hbeyond,-⟩ | ⟨-,herror⟩
  · exact hbeyond
  · cases h.symm.trans herror

theorem Names.not_overflows {kind : RouteDecisionKind} {c : Option Float64} {t : Option Text}
    (h : Names client agents payload kind c t) : ¬Overflows client agents payload := by
  intro hover
  cases h with
  | asItStands hroute hfits hconfidence =>
    cases hover with
    | asItStands _ _ hbeyond => exact hconfidence.not_beyond hbeyond
    | labelled hroute' => exact route_not_both hroute hroute'
  | labelled hroute hlabel hconfidence =>
    cases hover with
    | asItStands hroute' => exact route_not_both hroute' hroute
    | labelled _ _ hbeyond => exact numericOrDefault_not_beyond hconfidence hbeyond

/-- A payload is no more than one decision. -/
theorem Names.unique {kind kind' : RouteDecisionKind} {c c' : Option Float64} {t t' : Option Text}
    (h : Names client agents payload kind c t) (h' : Names client agents payload kind' c' t') :
    kind = kind' ∧ c = c' ∧ t = t' := by
  cases h with
  | asItStands hroute hfits hconfidence =>
    cases h' with
    | asItStands hroute' hfits' hconfidence' =>
      have hkind := value_injective (JsonValue.string.inj (hroute.symm.trans hroute'))
      subst hkind
      exact ⟨rfl,hconfidence.unique hconfidence',hfits.unique hfits'⟩
    | labelled hroute' => exact (route_not_both hroute hroute').elim
  | labelled hroute hlabel hconfidence htarget =>
    cases h' with
    | asItStands hroute' => exact (route_not_both hroute' hroute).elim
    | labelled _ hlabel' hconfidence' htarget' =>
      cases hlabel.symm.trans hlabel'
      cases hconfidence.symm.trans hconfidence'
      exact ⟨rfl,rfl,htarget.unique htarget'⟩

theorem decided_asItStands {kind : RouteDecisionKind}
    {result : Except RouterError RouterModelDecision}
    (hroute : JsonValue.get payload "route" = .string (Text.of kind.value))
    (h : Checked agents kind payload result) : Decided client agents payload result := by
  cases h with
  | decided hfits hconfidence hkind htarget =>
    exact .named (.asItStands (hkind ▸ hroute) (hkind ▸ hfits) hconfidence) htarget
  | overflows hfits hbeyond => exact .overflows (.asItStands hroute hfits hbeyond)
  | refused hrefused hrefused' =>
    refine .unnamed (fun kind' c t h => ?_)
      (routeKind?_not_container (hroute ▸ routeKind?_value kind)) fun hover => ?_
    · cases h with
      | asItStands hroute' hfits hconfidence =>
        have hkind := value_injective (JsonValue.string.inj (hroute.symm.trans hroute'))
        subst hkind
        exact hrefused t c hfits hconfidence
      | labelled hroute' => exact route_not_both hroute hroute'
    · cases hover with
      | asItStands hroute' hfits hbeyond =>
        have hkind := value_injective (JsonValue.string.inj (hroute.symm.trans hroute'))
        subst hkind
        exact hrefused' _ hfits hbeyond
      | labelled hroute' => exact route_not_both hroute hroute'

theorem decided_labelled {kind : RouteDecisionKind} {reason : Text} {target : PyJson} {c : Float64}
    {result : Except RouterError RouterModelDecision}
    (hroute : routeKind? (JsonValue.get payload "route") = .ok none)
    (hlabel : client.classifierLabel payload = some (kind,reason,target))
    (hconfidence : numericOrDefault (JsonValue.get payload "confidence") = .ok c)
    (h : Checked agents kind (mergePayload payload (repairedMembers kind c reason target)) result) :
    Decided client agents payload result := by
  have hreads : ReadsConfidence (JsonValue.get
      (mergePayload payload (repairedMembers kind c reason target)) "confidence") (some c) :=
    .given (repaired_confidence payload kind c reason target ▸ toFloat_ofFloat c)
  have hmodel := classifierLabel_model hlabel
  cases h with
  | decided hfits hconfidence' hkind htarget =>
    obtain ⟨ht,ha⟩ := (repaired_fits hmodel).mp hfits
    have hc := hreads.unique hconfidence'
    refine .named ?_ htarget
    rw [hkind,← hc]
    exact .labelled hroute hlabel hconfidence ht ha
  | overflows _ hbeyond => exact absurd hbeyond hreads.not_beyond
  | refused hrefused =>
    refine .unnamed (fun kind' c' t h => ?_) (routeKind?_not_container hroute) fun hover => ?_
    · cases h with
      | asItStands hroute' => exact route_not_both hroute' hroute
      | labelled _ hlabel' hconfidence' ht ha =>
        cases hlabel.symm.trans hlabel'
        cases hconfidence.symm.trans hconfidence'
        exact hrefused t _ ((repaired_fits hmodel).mpr ⟨ht,ha⟩) hreads
    · cases hover with
      | asItStands hroute' => exact route_not_both hroute' hroute
      | labelled _ _ hbeyond => exact numericOrDefault_not_beyond hconfidence hbeyond

theorem routerModelDecisionFromPayload_decided (payload : RouterPayload) :
    Decided client agents (withoutRepair payload)
      (client.routerModelDecisionFromPayload agents payload) := by
  unfold routerModelDecisionFromPayload
  dsimp only
  generalize withoutRepair payload = payload'
  rcases routeKind?_cases (JsonValue.get payload' "route") with
    ⟨hcontainer,m,hroute⟩ | ⟨kind,hlabel,hroute⟩ | ⟨hcontainer,hroute⟩
  · simp only [bind,Except.bind,hroute]
    exact .unhashable hcontainer
  · simp only [bind,Except.bind,hroute]
    exact decided_asItStands hlabel (checkedDecision_checked _ _)
  · simp only [bind,Except.bind,hroute,repairRouterPayload]
    cases hlabel : client.classifierLabel payload' with
    | none =>
      refine .unnamed (fun kind c t h => ?_) hcontainer fun hover => ?_
      · cases h with
        | asItStands hroute' => exact route_not_both hroute' hroute
        | labelled _ hlabel' => cases hlabel.symm.trans hlabel'
      · cases hover with
        | asItStands hroute' => exact route_not_both hroute' hroute
        | labelled _ hlabel' => simp [hlabel] at hlabel'
    | some label =>
      obtain ⟨kind,reason,target⟩ := label
      rcases numericOrDefault_cases (JsonValue.get payload' "confidence") with
        ⟨-,c,hconfidence⟩ | ⟨hbeyond,hconfidence⟩
      · simp only [hconfidence,repaired_route,routeKind?_value]
        exact decided_labelled hroute hlabel hconfidence (checkedDecision_checked _ _)
      · simp only [hconfidence]
        exact .overflows (.labelled hroute (by simp [hlabel]) hbeyond)

end Payloads
section Texts

variable (client : DirectModelRouterModelClient) (agents : List RegisteredAgentRecord) (raw : Text)

theorem routerLoads_cases (decodeError : Text → Text) (text : Text) :
    (∃ json, client.routerLoads decodeError text = .ok json) ∨
    client.routerLoads decodeError text = .error .recursionError ∨
    ∃ m, client.routerLoads decodeError text = .error (.valueError m) := by
  unfold routerLoads
  split
  · exact .inl ⟨_,rfl⟩
  · exact .inr (.inr ⟨_,rfl⟩)
  · exact .inr (.inr ⟨_,rfl⟩)
  · exact .inr (.inl rfl)

theorem extractJsonObject_cases :
    (∃ payload, client.extractJsonObject raw = .ok payload) ∨
    client.extractJsonObject raw = .error .recursionError ∨
    ∃ m, client.extractJsonObject raw = .error (.valueError m) := by
  have hobject : ∀ json, (∃ payload, routerObject json = .ok payload) ∨
      routerObject json = .error .recursionError ∨
      ∃ m, routerObject json = .error (.valueError m) := by
    intro json
    cases json <;> simp [routerObject]
  unfold extractJsonObject
  dsimp only
  split
  · exact .inr (.inr ⟨_,rfl⟩)
  · split
    · exact hobject _
    · exact .inr (.inr ⟨_,rfl⟩)
    · exact .inr (.inl rfl)
    · split
      · exact .inr (.inr ⟨_,rfl⟩)
      · rename_i inner _
        rcases client.routerLoads_cases (Text.of "invalid JSON: " ++ ·) inner with
          ⟨json,hjson⟩ | hjson | ⟨m,hjson⟩
        · simp only [hjson,bind,Except.bind]
          exact hobject json
        · exact .inr (.inl (by simp only [hjson,bind,Except.bind]))
        · simp only [hjson,bind,Except.bind]
          exact .inr (.inr ⟨m,rfl⟩)

/-- The text has the label, which is looked for in all of it. -/
def TextLabel (kind : RouteDecisionKind) : Prop :=
  ∃ reason target, client.classifierLabel (rawPayload raw) = some (kind,reason,target)

/-- The text speaks of a remote agent and of nothing local. -/
def RemoteLabel : Prop :=
  Text.of "remote_agent" <:+: lowerText raw ∧ ¬Text.of "local_message" <:+: lowerText raw ∧
    ¬Text.of "local_task" <:+: lowerText raw

variable {client raw} in
/-- What a text speaks of is not changed by blanks after it. -/
theorem infix_append_blank {w s : Text} {a : CodePoint} (ha : a ∉ w) (hw : w ≠ []) :
    w <:+: s ++ [a] ↔ w <:+: s := by
  rw [List.infix_concat_iff]
  constructor
  · rintro (h | h)
    · have hlast := h.getLast hw
      rw [List.getLast_append_singleton] at hlast
      exact absurd (hlast ▸ List.getLast_mem hw) ha
    · exact h
  · exact .inr

variable {client raw} in
theorem classifierText_raw : client.classifierText (rawPayload raw) =
    ((lowerText raw ++ [.char ' ']) ++ [.char ' ']) ++ [.char ' '] := by
  have hraw : strJson client.isPrintable (orJson (.string raw) (.string [])) = raw := by
    cases raw <;> rfl
  have hjoin : client.classifierText (rawPayload raw) =
      lowerText (strJson client.isPrintable (orJson (.string raw) (.string [])) ++
        Text.of "   ") := by
    unfold classifierText
    congr 1
  rw [hjoin,hraw,lowerText,List.flatMap_append]
  simp [lowerText,Text.of,lowerPoint,CodePoint.value]

theorem label_infix (kind : RouteDecisionKind) :
    Text.of kind.value <:+: client.classifierText (rawPayload raw) ↔
      Text.of kind.value <:+: lowerText raw := by
  have hblank : CodePoint.char ' ' ∉ Text.of kind.value := by cases kind <;> decide
  have hne : Text.of kind.value ≠ [] := by cases kind <;> decide
  rw [classifierText_raw,infix_append_blank hblank hne,infix_append_blank hblank hne,
    infix_append_blank hblank hne]

theorem find_remote : (routeKinds.find? fun kind =>
    Text.of kind.value <:+: client.classifierText (rawPayload raw)) = some .remoteAgent ↔
      RemoteLabel raw := by
  have hmessage := label_infix client raw .localMessage
  have htask := label_infix client raw .localTask
  have hremote := label_infix client raw .remoteAgent
  unfold routeKinds RemoteLabel
  simp only [List.find?_cons,hmessage,htask,hremote]
  simp only [RouteDecisionKind.value]
  by_cases h₁ : Text.of "local_message" <:+: lowerText raw
  · simp [h₁]
  · by_cases h₂ : Text.of "local_task" <:+: lowerText raw
    · simp [h₁,h₂]
    · by_cases h₃ : Text.of "remote_agent" <:+: lowerText raw <;> simp [h₁,h₂,h₃]

variable {raw} in
theorem textLabel_remote : TextLabel client raw .remoteAgent ↔ RemoteLabel raw := by
  have htool : requiresTool (rawPayload raw) = .null := rfl
  rw [← find_remote client raw]
  unfold TextLabel classifierLabel
  rw [htool]
  dsimp only
  constructor
  · rintro ⟨reason,target,h⟩
    split at h
    · rename_i kind hfind
      cases h
      exact hfind
    · split at h <;> cases h
  · intro hfind
    exact ⟨_,_,by rw [hfind]⟩

/-- The decision that a text offers: the one of its object or, if that is none, the one of the
label in the text; a label alone names no remote agent. -/
inductive Offers : RouteDecisionKind → Option Float64 → Option Text → Prop
  | named {payload : RouterPayload} {kind : RouteDecisionKind} {c : Option Float64}
    {t : Option Text} (hpayload : client.extractJsonObject raw = .ok payload)
    (h : Names client agents (withoutRepair payload) kind c t) : Offers kind c t
  | labelled {kind : RouteDecisionKind}
    (hunnamed : ∀ payload, client.extractJsonObject raw = .ok payload →
      ∀ kind c t, ¬Names client agents (withoutRepair payload) kind c t)
    (hlabel : TextLabel client raw kind) (hkind : kind ≠ .remoteAgent) :
    Offers kind (some defaultConfidence) none

/-- A remote agent is an enabled one of the list, and a message stays local if the text offers no
decision or none that is sure enough. -/
structure IsSafe (decision : RouterModelDecision) : Prop where
  remote : decision.kind = .remoteAgent → ∃ agent ∈ agents, agent.enabled ∧
    decision.targetAgentId = some (Text.of agent.agentId)
  unreadable : (∀ kind c t, ¬Offers client agents raw kind c t) → decision.kind = .localMessage
  unsure : ∀ kind x t, Offers client agents raw kind (some x) t → x.lt client.confidenceThreshold →
    decision.kind = .localMessage

/-- The texts that a safe decision comes of. -/
structure IsClassifiable : Prop where
  /-- The text is nested no deeper than the parser goes. -/
  shallow : client.extractJsonObject raw ≠ .error .recursionError
  /-- The route of its object is neither a list nor an object. -/
  hashable : ∀ payload, client.extractJsonObject raw = .ok payload →
    ¬IsContainer (JsonValue.get (withoutRepair payload) "route")
  /-- A confidence that has to be converted is no integer beyond the doubles. -/
  convertible : ∀ payload, client.extractJsonObject raw = .ok payload →
    ¬Overflows client agents (withoutRepair payload)
  /-- The id of a remote agent is still that of an enabled agent when it is stripped. -/
  clean : ∀ payload, client.extractJsonObject raw = .ok payload → ∀ c id,
    Names client agents (withoutRepair payload) .remoteAgent c (some id) →
    (∀ x, c = some x → x.lt client.confidenceThreshold = false) →
    stripText id ≠ [] ∧ isEnabledAgent agents (stripText id)
  /-- A text whose object is no decision is not labelled as for a remote agent. -/
  local_label : (∀ payload, client.extractJsonObject raw = .ok payload →
    ∀ kind c t, ¬Names client agents (withoutRepair payload) kind c t) →
    ¬RemoteLabel raw

variable {client agents raw}

theorem classifierLabel_target {payload : RouterPayload} {kind : RouteDecisionKind} {reason : Text}
    {target : PyJson} (h : client.classifierLabel payload = some (kind,reason,target)) :
    target = targetOf payload ∨ target = .null := by
  unfold classifierLabel at h
  split at h
  · cases h
    exact .inl rfl
  · dsimp only at h
    split at h
    · cases h
      exact .inl rfl
    · split at h <;> cases h
      exact .inr rfl

theorem get_withoutRepair {payload : RouterPayload} {name : String}
    (h : Text.of name ≠ schemaRepairKey) :
    JsonValue.get (withoutRepair payload) name = JsonValue.get payload name := get_filter h

theorem fits_withoutRepair {kind : RouteDecisionKind} {payload : RouterPayload} {t : Option Text} :
    Fits agents kind (withoutRepair payload) t ↔ Fits agents kind payload t := by
  have hreason : JsonValue.get (withoutRepair payload) "reason" = JsonValue.get payload "reason" :=
    get_withoutRepair (by decide)
  have htarget : targetOf (withoutRepair payload) = targetOf payload := by
    unfold targetOf
    rw [get_withoutRepair (by decide),get_withoutRepair (by decide)]
  constructor
  · rintro ⟨h,hreads,ha⟩
    exact ⟨hreason ▸ h,htarget ▸ hreads,ha⟩
  · rintro ⟨h,hreads,ha⟩
    exact ⟨hreason ▸ h,htarget ▸ hreads,ha⟩

variable (agents) in
/-- A label in the text is a decision unless it is that of a remote agent. -/
theorem rawRepaired_cases {kind : RouteDecisionKind} {reason : Text} {target : PyJson}
    (hlabel : client.classifierLabel (rawPayload raw) = some (kind,reason,target)) :
    let result := client.routerModelDecisionFromPayload agents
      (mergePayload (rawPayload raw) (repairedMembers kind defaultConfidence reason target))
    (kind ≠ .remoteAgent ∧ ∃ decision, result = .ok decision ∧ decision.kind = kind ∧
      decision.confidence = some defaultConfidence) ∨
    (kind = .remoteAgent ∧ ∃ m, result = .error (.valueError m)) := by
  intro result
  have hdecided : Decided client agents _ result := routerModelDecisionFromPayload_decided _
  generalize result = result at hdecided
  have hroute := (get_withoutRepair (by decide)).trans
    (repaired_route (rawPayload raw) kind defaultConfidence reason target)
  have hconfidence := (get_withoutRepair (by decide)).trans
    (repaired_confidence (rawPayload raw) kind defaultConfidence reason target)
  have hreads : ReadsConfidence _ (some defaultConfidence) :=
    .given (hconfidence ▸ toFloat_ofFloat defaultConfidence)
  have htarget : target = .null := (classifierLabel_target hlabel).elim id id
  have hfits : ∀ t, Fits agents kind (withoutRepair
      (mergePayload (rawPayload raw) (repairedMembers kind defaultConfidence reason target))) t ↔
      ReadsTarget .null t ∧ Addressed agents kind t := fun t => by
    rw [fits_withoutRepair,repaired_fits (classifierLabel_model hlabel),htarget]
    rfl
  cases hdecided with
  | unhashable h => exact absurd h (routeKind?_not_container (hroute ▸ routeKind?_value kind))
  | overflows h =>
    cases h with
    | asItStands _ _ hbeyond => exact absurd hbeyond hreads.not_beyond
    | labelled hroute' => exact (route_not_both hroute hroute').elim
  | named h htarget' =>
    rename_i decision t
    generalize hc : decision.confidence = c at h
    cases h with
    | asItStands hroute' hfits' hconfidence' =>
      have hkind := value_injective (JsonValue.string.inj (hroute'.symm.trans hroute))
      obtain ⟨ht,ha⟩ := (hfits _).mp (hkind ▸ hfits')
      cases ht
      refine .inl ⟨fun hremote => ?_,_,rfl,hkind,hc.trans (hconfidence'.unique hreads)⟩
      obtain ⟨id,hid,-⟩ := ha hremote
      cases hid
    | labelled hroute' => exact (route_not_both hroute hroute').elim
  | unnamed h =>
    refine .inr ⟨?_,_,rfl⟩
    by_contra hremote
    exact h kind _ none (.asItStands hroute
      ((hfits none).mpr ⟨.missing,fun hkind => absurd hkind hremote⟩) hreads)

theorem finishDecision_unsure {decision : RouterModelDecision} {x : Float64}
    (h : decision.confidence = some x) (hx : x.lt client.confidenceThreshold) :
    (client.finishDecision decision).kind = .localMessage := by
  simp [finishDecision,h,Option.filter,hx]

theorem finishDecision_sure {decision : RouterModelDecision}
    (h : ∀ x, decision.confidence = some x → x.lt client.confidenceThreshold = false) :
    (client.finishDecision decision).kind = decision.kind ∧
      (client.finishDecision decision).targetAgentId = decision.targetAgentId := by
  have hnone : decision.confidence.filter (·.lt client.confidenceThreshold) = none := by
    rw [Option.filter_eq_none_iff]
    intro x hx
    simp [h x hx]
  unfold finishDecision
  rw [hnone]
  exact ⟨rfl,rfl⟩

theorem finishDecision_kind (decision : RouterModelDecision) :
    (client.finishDecision decision).kind = .localMessage ∨
      (client.finishDecision decision).kind = decision.kind := by
  unfold finishDecision
  split
  · exact .inl rfl
  · exact .inr rfl

theorem offers_named {payload : RouterPayload} {kind kind' : RouteDecisionKind}
    {c c' : Option Float64} {t t' : Option Text}
    (hpayload : client.extractJsonObject raw = .ok payload)
    (h : Names client agents (withoutRepair payload) kind c t)
    (hoffers : Offers client agents raw kind' c' t') : kind = kind' ∧ c = c' ∧ t = t' := by
  cases hoffers with
  | named hpayload' h' =>
    cases hpayload.symm.trans hpayload'
    exact h.unique h'
  | labelled hunnamed => exact absurd h (hunnamed payload hpayload _ _ _)

/-- A text whose object is no decision gets one exactly if it has no label of a remote agent. -/
theorem repairText_cases (message : Text)
    (hunnamed : ∀ payload, client.extractJsonObject raw = .ok payload →
      ∀ kind c t, ¬Names client agents (withoutRepair payload) kind c t) :
    (¬RemoteLabel raw ∧ ∃ decision, client.repairText agents raw message = .ok decision ∧
      IsSafe client agents raw decision) ∨
    (RemoteLabel raw ∧ ∃ m, client.repairText agents raw message = .error (.valueError m)) := by
  unfold repairText repairRouterPayload
  cases hlabel : client.classifierLabel (rawPayload raw) with
  | none =>
    refine .inl ⟨fun hremote => ?_,_,rfl,⟨fun hkind => ?_,fun _ => rfl,fun _ _ _ _ _ => rfl⟩⟩
    · obtain ⟨reason,target,h⟩ := (textLabel_remote client).mpr hremote
      cases hlabel.symm.trans h
    · cases hkind
  | some label =>
    obtain ⟨kind,reason,target⟩ := label
    have hdefault : numericOrDefault (JsonValue.get (rawPayload raw) "confidence") =
        .ok defaultConfidence := rfl
    simp only [hdefault,bind,Except.bind]
    rcases rawRepaired_cases agents hlabel with
      ⟨hkind,decision,hresult,hdecision,hconfidence⟩ | ⟨hkind,m,hresult⟩
    · rw [hresult]
      refine .inl ⟨fun hremote => ?_,_,rfl,?_⟩
      · obtain ⟨_,_,h⟩ := (textLabel_remote client).mpr hremote
        cases hlabel.symm.trans h
        exact hkind rfl
      · constructor
        · intro hremote
          rcases client.finishDecision_kind decision with h | h
          · cases h.symm.trans hremote
          · exact absurd (hdecision.symm.trans (h.symm.trans hremote)) hkind
        · intro hnone
          exact absurd (.labelled hunnamed ⟨reason,target,hlabel⟩ hkind) (hnone _ _ _)
        · intro kind' x t hoffers hx
          cases hoffers with
          | named hpayload h => exact absurd h (hunnamed _ hpayload _ _ _)
          | labelled => exact finishDecision_unsure hconfidence hx
    · rw [hresult]
      refine .inr ⟨(textLabel_remote client).mp ⟨reason,target,hkind ▸ hlabel⟩,m,rfl⟩

theorem isEnabledAgent_iff {id : Text} : isEnabledAgent agents id ↔
    ∃ agent ∈ agents, agent.enabled ∧ Text.of agent.agentId = id := by
  simp [isEnabledAgent]

theorem cleanTarget_iff {t : Option Text} {id : Text} : cleanTarget t = some id ↔
    ∃ given, t = some given ∧ stripText given = id ∧ id ≠ [] := by
  cases t with
  | none => simp [cleanTarget]
  | some given =>
    by_cases h : stripText given = []
    · simp only [cleanTarget,Option.map_some,Option.filter,h]
      simp
      rintro rfl
      exact h
    · simp [cleanTarget,Option.filter,h]
      rintro rfl
      exact h

/-- A remote agent's id is clean if the decision is sure enough to be followed. -/
def NamesClean (client : DirectModelRouterModelClient) (agents : List RegisteredAgentRecord)
    (kind : RouteDecisionKind) (c : Option Float64) (t : Option Text) : Prop :=
  kind = .remoteAgent → (∀ x, c = some x → x.lt client.confidenceThreshold = false) →
    ∃ id, cleanTarget t = some id ∧ isEnabledAgent agents id

theorem named_isSafe {payload : RouterPayload} {decision : RouterModelDecision} {t : Option Text}
    (hpayload : client.extractJsonObject raw = .ok payload)
    (h : Names client agents (withoutRepair payload) decision.kind decision.confidence t)
    (htarget : decision.targetAgentId = cleanTarget t) :
    IsSafe client agents raw (client.finishDecision decision) ↔
      NamesClean client agents decision.kind decision.confidence t := by
  constructor
  · intro hsafe hkind hsure
    obtain ⟨hkeeps,hkeepsTarget⟩ := finishDecision_sure hsure
    obtain ⟨agent,hmem,henabled,hid⟩ := hsafe.remote (hkeeps.trans hkind)
    rw [hkeepsTarget,htarget] at hid
    exact ⟨_,hid,isEnabledAgent_iff.mpr ⟨agent,hmem,henabled,rfl⟩⟩
  · intro hclean
    constructor
    · intro hremote
      have hkind : decision.kind = .remoteAgent := by
        rcases client.finishDecision_kind decision with h | h
        · cases h.symm.trans hremote
        · exact h.symm.trans hremote
      have hsure : ∀ x, decision.confidence = some x →
          x.lt client.confidenceThreshold = false := by
        intro x hx
        by_contra hlow
        rw [Bool.not_eq_false] at hlow
        cases (finishDecision_unsure hx hlow).symm.trans hremote
      obtain ⟨id,hid,henabled⟩ := hclean hkind hsure
      obtain ⟨agent,hmem,hagent,rfl⟩ := isEnabledAgent_iff.mp henabled
      exact ⟨agent,hmem,hagent,by rw [(finishDecision_sure hsure).2,htarget,hid]⟩
    · intro hnone
      exact absurd (.named hpayload h) (hnone _ _ _)
    · intro kind x t' hoffers hx
      exact finishDecision_unsure (offers_named hpayload h hoffers).2.1 hx

/-- A text whose object is no decision, after the `ValueError` that says so. -/
theorem classifiable_unnamed {message : Text}
    (hclassify : client.classify agents raw = client.repairText agents raw message)
    (hshallow : client.extractJsonObject raw ≠ .error .recursionError)
    (hunnamed : ∀ payload, client.extractJsonObject raw = .ok payload →
      (∀ kind c t, ¬Names client agents (withoutRepair payload) kind c t) ∧
      ¬IsContainer (JsonValue.get (withoutRepair payload) "route") ∧
      ¬Overflows client agents (withoutRepair payload)) :
    (∃ decision, client.classify agents raw = .ok decision ∧ IsSafe client agents raw decision) ↔
      IsClassifiable client agents raw := by
  have hnames := fun payload hpayload => (hunnamed payload hpayload).1
  rw [hclassify]
  rcases repairText_cases message hnames with ⟨hlabel,hsafe⟩ | ⟨hlabel,m,herror⟩
  · refine iff_of_true hsafe ⟨hshallow,fun payload h => (hunnamed payload h).2.1,
      fun payload h => (hunnamed payload h).2.2,fun payload h c id hname => ?_,fun _ => hlabel⟩
    exact absurd hname (hnames payload h _ _ _)
  · refine iff_of_false ?_ fun h => h.local_label hnames hlabel
    rintro ⟨decision,h,-⟩
    cases herror.symm.trans h

theorem Names.addressed {payload : RouterPayload} {kind : RouteDecisionKind} {c : Option Float64}
    {t : Option Text} (h : Names client agents payload kind c t) : Addressed agents kind t := by
  cases h with
  | asItStands _ hfits => exact hfits.addressed
  | labelled _ _ _ _ haddressed => exact haddressed

theorem named_classifiable {payload : RouterPayload} {kind : RouteDecisionKind}
    {c : Option Float64} {t : Option Text} (hpayload : client.extractJsonObject raw = .ok payload)
    (hnames : Names client agents (withoutRepair payload) kind c t) :
    IsClassifiable client agents raw ↔ NamesClean client agents kind c t := by
  constructor
  · intro h hkind hsure
    subst hkind
    obtain ⟨id,rfl,-,-⟩ := hnames.addressed rfl
    obtain ⟨hne,henabled⟩ := h.clean payload hpayload c id hnames hsure
    exact ⟨_,cleanTarget_iff.mpr ⟨id,rfl,rfl,hne⟩,henabled⟩
  · intro hclean
    refine ⟨fun h => (nomatch hpayload.symm.trans h),fun payload' h => ?_,fun payload' h => ?_,
      fun payload' h c' id hnames' hsure => ?_,fun hunnamed => ?_⟩
    · cases hpayload.symm.trans h
      exact hnames.not_container
    · cases hpayload.symm.trans h
      exact hnames.not_overflows
    · cases hpayload.symm.trans h
      obtain ⟨rfl,rfl,rfl⟩ := hnames.unique hnames'
      obtain ⟨id',hid',henabled⟩ := hclean rfl hsure
      obtain ⟨given,hgiven,hstrip,hne⟩ := cleanTarget_iff.mp hid'
      cases hgiven
      rw [hstrip]
      exact ⟨hne,henabled⟩
    · exact absurd hnames (hunnamed payload hpayload _ _ _)

variable (agents) in
theorem classify_of_payload {payload : RouterPayload}
    (hpayload : client.extractJsonObject raw = .ok payload) : client.classify agents raw =
      match client.routerModelDecisionFromPayload agents payload with
      | .ok decision => .ok (client.finishDecision decision)
      | .error (.valueError message) => client.repairText agents raw message
      | .error e => .error e := by
  unfold classify
  rw [hpayload]
  rfl

/-- A decision that is sure enough is followed. -/
theorem classify_follows {payload : RouterPayload} {kind : RouteDecisionKind} {c : Option Float64}
    {t : Option Text} (hpayload : client.extractJsonObject raw = .ok payload)
    (hnames : Names client agents (withoutRepair payload) kind c t)
    (hsure : ∀ x, c = some x → x.lt client.confidenceThreshold = false) :
    ∃ decision, client.classify agents raw = .ok decision ∧ decision.kind = kind ∧
      decision.targetAgentId = cleanTarget t := by
  have hdecided : Decided client agents (withoutRepair payload) _ :=
    routerModelDecisionFromPayload_decided payload
  rw [classify_of_payload agents hpayload]
  generalize client.routerModelDecisionFromPayload agents payload = result at hdecided
  cases hdecided with
  | unhashable hcontainer => exact absurd hcontainer hnames.not_container
  | overflows hover => exact absurd hover hnames.not_overflows
  | named hnames' htarget =>
    obtain ⟨rfl,rfl,rfl⟩ := hnames.unique hnames'
    obtain ⟨hkeeps,hkeepsTarget⟩ := finishDecision_sure hsure
    exact ⟨_,rfl,hkeeps,hkeepsTarget.trans htarget⟩
  | unnamed hunnamed => exact absurd hnames (hunnamed _ _ _)

/-- A text gets a decision, and a safe one, exactly if it is classifiable. -/
theorem router_classification_total_and_safe (client : DirectModelRouterModelClient)
    (agents : List RegisteredAgentRecord) (raw : Text) :
    (∃ decision, client.classify agents raw = .ok decision ∧ IsSafe client agents raw decision) ↔
      IsClassifiable client agents raw := by
  rcases client.extractJsonObject_cases raw with ⟨payload,hpayload⟩ | hdeep | ⟨m,hvalue⟩
  · have hclassify := classify_of_payload agents hpayload
    have hdecided : Decided client agents (withoutRepair payload) _ :=
      routerModelDecisionFromPayload_decided payload
    generalize client.routerModelDecisionFromPayload agents payload = result at hclassify hdecided
    cases hdecided with
    | unhashable hcontainer =>
      refine iff_of_false ?_ fun h => h.hashable payload hpayload hcontainer
      rintro ⟨decision,h,-⟩
      cases hclassify.symm.trans h
    | overflows hover =>
      refine iff_of_false ?_ fun h => h.convertible payload hpayload hover
      rintro ⟨decision,h,-⟩
      cases hclassify.symm.trans h
    | named hnames htarget =>
      rw [named_classifiable hpayload hnames,← named_isSafe hpayload hnames htarget,hclassify]
      constructor
      · rintro ⟨decision',h,hsafe⟩
        cases h
        exact hsafe
      · exact fun hsafe => ⟨_,rfl,hsafe⟩
    | unnamed hnames hroute hconfidence =>
      refine classifiable_unnamed hclassify (fun h => nomatch hpayload.symm.trans h)
        fun payload' hpayload' => ?_
      cases hpayload.symm.trans hpayload'
      exact ⟨hnames,hroute,hconfidence⟩
  · refine iff_of_false ?_ fun h => h.shallow hdeep
    rintro ⟨decision,h,-⟩
    unfold classify at h
    rw [hdeep] at h
    cases h
  · have hclassify : client.classify agents raw = client.repairText agents raw m := by
      unfold classify
      rw [hvalue]
      rfl
    exact classifiable_unnamed hclassify (fun h => nomatch hvalue.symm.trans h)
      fun payload hpayload => nomatch hvalue.symm.trans hpayload

/-- A client with the default threshold, 0.65. -/
def sampleRouter : DirectModelRouterModelClient :=
  ⟨NumberToken.float ⟨false,[0],[6,5],none⟩,none,none,fun _ => Text.of "Expecting value",
    fun _ => true⟩

/-- A route to an agent that is not registered. -/
def unknownAgentText : Text :=
  Text.of ("\x7b\"route\":\"remote_agent\",\"confidence\":1,\"reason\":\"x\"," ++
    "\"targetAgentId\":\"a\"\x7d")

theorem router_classification_unknown_agent_raises :
    ¬∃ decision, sampleRouter.classify [] unknownAgentText = .ok decision := by
  rintro ⟨decision,h⟩
  have hok : (sampleRouter.classify [] unknownAgentText).isOk = false := by decide +kernel
  rw [h] at hok
  cases hok

end Texts
end DirectModelRouterModelClient
end VermayAgent
