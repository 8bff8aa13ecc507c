import Mathlib
import VermayAgent.McpSelections

/-! When a selection comes back from its text form.
The colon after the server and the question mark before the arguments are looked for from the left,
in texts that may hold them as well. -/
namespace VermayAgent
open Library

section Results

universe u

variable {ε α β : Type} {f : α → Except ε β}

theorem except_bind_ok {x : Except ε α} {b : β} :
    (x >>= f) = .ok b ↔ ∃ a, x = .ok a ∧ f a = .ok b := by
  cases x with
  | error e => simp [bind,Except.bind]
  | ok a => simp [bind,Except.bind]

theorem mapM_ok {l : List α} {ys : List β} :
    l.mapM f = .ok ys ↔ List.Forall₂ (fun x y => f x = .ok y) l ys := by
  induction l generalizing ys with
  | nil => simp [pure,Except.pure,eq_comm]
  | cons x l ih =>
    simp only [List.mapM_cons,except_bind_ok,ih,pure,Except.pure,Except.ok.injEq,
      List.forall₂_cons_left_iff]
    constructor
    · rintro ⟨y,hy,ys',hys,rfl⟩
      exact ⟨y,ys',hy,hys,rfl⟩
    · rintro ⟨y,ys',hy,hys,rfl⟩
      exact ⟨y,hy,ys',hys,rfl⟩

theorem exists_of_forall₂ {γ : Type} {R : α → γ → Prop} {l : List α} {ys : List γ}
    (h : List.Forall₂ R l ys) {y : γ} (hy : y ∈ ys) : ∃ x ∈ l, R x y := by
  induction h with
  | nil => cases hy
  | cons hxy _ ih =>
    rcases List.mem_cons.mp hy with rfl | hy
    · exact ⟨_,List.mem_cons_self,hxy⟩
    · obtain ⟨x,hx,hR⟩ := ih hy
      exact ⟨x,List.mem_cons_of_mem _ hx,hR⟩

theorem mapM_mapM_ok {γ : Type} {g : β → Except ε γ} {R : α → γ → Prop} {l : List α} :
    (∃ ys zs, l.mapM f = .ok ys ∧ ys.mapM g = .ok zs ∧ List.Forall₂ R l zs) ↔
      ∀ x ∈ l, ∃ y z, f x = .ok y ∧ g y = .ok z ∧ R x z := by
  simp only [mapM_ok]
  induction l with
  | nil => simp
  | cons x l ih =>
    rw [List.forall_mem_cons,← ih]
    constructor
    · rintro ⟨ys,zs,hys,hzs,hR⟩
      cases hys with
      | cons hy hys =>
        cases hzs with
        | cons hz hzs =>
          cases hR with
          | cons hxz hR => exact ⟨⟨_,_,hy,hz,hxz⟩,_,_,hys,hzs,hR⟩
    · rintro ⟨⟨y,z,hy,hz,hxz⟩,ys,zs,hys,hzs,hR⟩
      exact ⟨y::ys,z::zs,.cons hy hys,.cons hz hzs,.cons hxz hR⟩

theorem map_mapM_ok {γ : Type} {f : α → β} {g : β → Except ε γ} {R : α → γ → Prop} {l : List α} :
    (∃ zs, (l.map f).mapM g = .ok zs ∧ List.Forall₂ R l zs) ↔
      ∀ x ∈ l, ∃ z, g (f x) = .ok z ∧ R x z := by
  simp only [mapM_ok,List.forall₂_map_left_iff]
  induction l with
  | nil => simp
  | cons x l ih =>
    rw [List.forall_mem_cons,← ih]
    constructor
    · rintro ⟨zs,hzs,hR⟩
      cases hzs with
      | cons hz hzs =>
        cases hR with
        | cons hxz hR => exact ⟨⟨_,hz,hxz⟩,_,hzs,hR⟩
    · rintro ⟨⟨z,hz,hxz⟩,zs,hzs,hR⟩
      exact ⟨z::zs,.cons hz hzs,.cons hxz hR⟩

end Results

section Trimmed

/-- The text neither begins nor ends with white space. -/
structure Trimmed (text : Text) : Prop where
  head : ∀ c ∈ text.head?, isSpacePoint c = false
  last : ∀ c ∈ text.getLast?, isSpacePoint c = false

theorem stripText_eq (text : Text) :
    stripText text = (text.dropWhile isSpacePoint).rdropWhile isSpacePoint := rfl

theorem stripText_of_trimmed {text : Text} (h : Trimmed text) : stripText text = text := by
  have hfront : text.dropWhile isSpacePoint = text := by
    cases text with
    | nil => rfl
    | cons c text => rw [List.dropWhile_cons_of_neg (by simp [h.head c rfl])]
  rw [stripText_eq,hfront,List.rdropWhile_eq_self_iff]
  intro hne
  simp [h.last _ (List.getLast?_eq_some_getLast hne)]

theorem trimmed_stripText (text : Text) : Trimmed (stripText text) := by
  rw [stripText_eq]
  constructor
  · intro c hc
    obtain ⟨back,hback⟩ := List.rdropWhile_prefix isSpacePoint (text.dropWhile isSpacePoint)
    have hhead : (text.dropWhile isSpacePoint).head? = some c := by
      rw [← hback,List.head?_append,hc]
      rfl
    have hnot := List.head?_dropWhile_not isSpacePoint text
    rw [hhead] at hnot
    simpa using hnot
  · intro c hc
    have hne : (text.dropWhile isSpacePoint).rdropWhile isSpacePoint ≠ [] :=
      List.ne_nil_of_mem (List.mem_of_getLast? hc)
    have hlast := List.rdropWhile_last_not isSpacePoint _ hne
    rw [List.getLast?_eq_some_getLast hne,Option.mem_some] at hc
    rw [hc] at hlast
    simpa using hlast

end Trimmed

section Payload

variable {isPrintable : CodePoint → Bool}

/-- The keys of an argument dictionary as they are read from a payload. -/
structure ArgumentKeys (arguments : List (Text × Text)) : Prop where
  trimmed : ∀ key ∈ arguments.map Prod.fst, Trimmed key ∧ key ≠ []
  nodup : (arguments.map Prod.fst).Nodup

/-- What `from_payload` has checked of a prompt. -/
structure McpPromptSelectionConfig.Checked (servers : List Text)
    (prompt : McpPromptSelectionConfig) : Prop where
  server_mem : prompt.server ∈ servers
  server_trimmed : Trimmed prompt.server
  server_ne : prompt.server ≠ []
  name_trimmed : Trimmed prompt.name
  name_ne : prompt.name ≠ []
  arguments : ArgumentKeys prompt.arguments

structure McpResourceSelectionConfig.Checked (servers : List Text)
    (resource : McpResourceSelectionConfig) : Prop where
  server_mem : resource.server ∈ servers
  uri_ne : resource.uri ≠ []

/-- What `from_payload` has checked of a selection. -/
structure McpSelectionConfig.Checked (selection : McpSelectionConfig) : Prop where
  servers_nodup : selection.servers.Nodup
  prompts : ∀ prompt ∈ selection.prompts, prompt.Checked selection.servers
  resources : ∀ resource ∈ selection.resources, resource.Checked selection.servers

theorem mcpFail_ne_ok {α : Type} {message : String} {a : α} : mcpFail message ≠ .ok a := nofun

theorem normalizeNames_nodup {label : String} {values : List PyJson} {seen servers : List Text}
    (hseen : seen.Nodup) (h : normalizeNames isPrintable label values seen = .ok servers) :
    servers.Nodup := by
  induction values generalizing seen with
  | nil =>
    cases h
    exact hseen
  | cons raw values ih =>
    rw [normalizeNames] at h
    by_cases hempty : stripText (strJson isPrintable raw) = []
    · rw [if_pos hempty] at h
      exact absurd h mcpFail_ne_ok
    rw [if_neg hempty] at h
    by_cases hmem : stripText (strJson isPrintable raw) ∈ seen
    · rw [if_pos hmem] at h
      exact ih hseen h
    · rw [if_neg hmem] at h
      refine ih ?_ h
      rw [List.nodup_append]
      refine ⟨hseen,List.nodup_singleton _,fun a ha b hb => ?_⟩
      rw [List.mem_singleton.mp hb]
      rintro rfl
      exact hmem ha

theorem ArgumentKeys.setEntry {arguments : List (Text × Text)} (h : ArgumentKeys arguments)
    {key : Text} (htrimmed : Trimmed key) (hne : key ≠ []) (value : Text) :
    ArgumentKeys (setEntry key value arguments) := by
  refine ⟨fun key' hkey => ?_,nodup_setEntry h.nodup key value⟩
  rw [keys_setEntry] at hkey
  by_cases hmem : key ∈ arguments.map Prod.fst
  · rw [if_pos hmem] at hkey
    exact h.trimmed key' hkey
  · rw [if_neg hmem,List.mem_append,List.mem_singleton] at hkey
    rcases hkey with hkey | rfl
    · exact h.trimmed key' hkey
    · exact ⟨htrimmed,hne⟩

theorem promptArguments_keys {items : List (Text × PyJson)} {arguments result : List (Text × Text)}
    (hkeys : ArgumentKeys arguments)
    (h : promptArguments isPrintable items arguments = .ok result) : ArgumentKeys result := by
  induction items generalizing arguments with
  | nil =>
    cases h
    exact hkeys
  | cons item items ih =>
    rw [promptArguments] at h
    by_cases hempty : stripText item.1 = []
    · rw [if_pos hempty] at h
      exact absurd h mcpFail_ne_ok
    · rw [if_neg hempty,except_bind_ok] at h
      obtain ⟨value,_,h⟩ := h
      exact ih (hkeys.setEntry (trimmed_stripText item.1) hempty value) h

theorem promptSelection_ok {raw : PyJson} {prompt : McpPromptSelectionConfig}
    (h : promptSelection isPrintable raw = .ok prompt) {servers : List Text}
    (hmem : prompt.server ∈ servers) : prompt.Checked servers := by
  cases raw with
  | object value =>
    rw [promptSelection] at h
    split at h
    · obtain ⟨arguments,harguments,h⟩ := except_bind_ok.mp h
      beta_reduce at h
      by_cases hserver : memberText isPrintable value "server" = []
      · rw [if_pos hserver] at h
        exact absurd h mcpFail_ne_ok
      by_cases hname : memberText isPrintable value "name" = []
      · rw [if_neg hserver,if_pos hname] at h
        exact absurd h mcpFail_ne_ok
      rw [if_neg hserver,if_neg hname] at h
      cases h
      exact ⟨hmem,trimmed_stripText _,hserver,trimmed_stripText _,hname,
        promptArguments_keys ⟨by simp,by simp⟩ harguments⟩
    · obtain ⟨_,h,_⟩ := except_bind_ok.mp h
      exact absurd h mcpFail_ne_ok
  | _ => exact absurd h mcpFail_ne_ok

theorem resourceSelection_ok {raw : PyJson} {resource : McpResourceSelectionConfig}
    (h : resourceSelection isPrintable raw = .ok resource) : resource.uri ≠ [] := by
  cases raw with
  | object value =>
    rw [resourceSelection] at h
    by_cases hserver : memberText isPrintable value "server" = []
    · rw [if_pos hserver] at h
      exact absurd h mcpFail_ne_ok
    by_cases huri : memberText isPrintable value "uri" = []
    · rw [if_neg hserver,if_pos huri] at h
      exact absurd h mcpFail_ne_ok
    rw [if_neg hserver,if_neg huri] at h
    cases h
    exact huri
  | _ => exact absurd h mcpFail_ne_ok

theorem validate_ok {selection : McpSelectionConfig} (h : selection.validate = .ok ()) :
    (∀ prompt ∈ selection.prompts, prompt.server ∈ selection.servers) ∧
      ∀ resource ∈ selection.resources, resource.server ∈ selection.servers := by
  rw [McpSelectionConfig.validate] at h
  split at h
  · cases h
  · next hprompts =>
    split at h
    · cases h
    · next hresources =>
      exact ⟨by simpa using hprompts,by simpa using hresources⟩

theorem fromPayload_checked {payload : Option (List (Text × PyJson))}
    {selection : McpSelectionConfig}
    (h : McpSelectionConfig.fromPayload isPrintable payload = .ok (some selection)) :
    selection.Checked := by
  cases payload with
  | none => cases h
  | some payload =>
    simp only [McpSelectionConfig.fromPayload,except_bind_ok] at h
    obtain ⟨names,_,servers,hservers,rawPrompts,_,prompts,hprompts,rawResources,_,resources,
      hresources,_,hvalid,h⟩ := h
    cases h
    obtain ⟨hpromptServers,hresourceServers⟩ := validate_ok hvalid
    rw [mapM_ok] at hprompts hresources
    refine ⟨normalizeNames_nodup List.nodup_nil hservers,fun prompt hprompt => ?_,
      fun resource hresource => ?_⟩
    · obtain ⟨raw,_,hraw⟩ := exists_of_forall₂ hprompts hprompt
      exact promptSelection_ok hraw (hpromptServers prompt hprompt)
    · obtain ⟨raw,_,hraw⟩ := exists_of_forall₂ hresources hresource
      exact ⟨hresourceServers resource hresource,resourceSelection_ok hraw⟩

end Payload

section Prompts

variable {servers : List Text} {prompt : McpPromptSelectionConfig} {resolved : McpPromptSelection}

/-- The same server, the same name, and the same arguments as a dictionary. -/
structure PromptComesBack (prompt : McpPromptSelectionConfig) (resolved : McpPromptSelection) :
    Prop where
  server : resolved.server = prompt.server
  name : resolved.name = prompt.name
  arguments : ∀ key, resolved.arguments.lookup key = prompt.arguments.lookup key

/-- The question mark and the arguments at the end of a prompt's text, if there are any. -/
def promptTail (prompt : McpPromptSelectionConfig) : Option Text :=
  if prompt.arguments = [] then some []
  else (urlencode prompt.arguments).map (.char '?'::·)

theorem runtimePromptValue_ok {text : Text} : runtimePromptValue prompt = .ok text ↔
    ∃ tail, promptTail prompt = some tail ∧
      text = prompt.server ++ .char ':'::(prompt.name ++ tail) := by
  rw [runtimePromptValue,promptTail]
  by_cases hnone : prompt.arguments = []
  · simp [hnone,eq_comm]
  · rw [if_neg hnone,if_neg hnone]
    cases urlencode prompt.arguments with
    | none => simp
    | some query => simp [eq_comm]

theorem promptTail_isSome_iff : (promptTail prompt).isSome = true ↔
    ∀ e ∈ prompt.arguments, (∀ c ∈ e.1, ∃ char, c = .char char) ∧
      ∀ c ∈ e.2, ∃ char, c = .char char := by
  rw [promptTail,← urlencode_isSome_iff]
  by_cases hnone : prompt.arguments = []
  · rw [if_pos hnone,hnone]
    decide
  · rw [if_neg hnone,Option.isSome_map]

theorem queryArguments_keys {entries arguments : List (Text × Text)}
    (h : ArgumentKeys (arguments ++ entries)) :
    queryArguments entries arguments = .ok (arguments ++ entries) := by
  induction entries generalizing arguments with
  | nil => rw [queryArguments,List.append_nil]
  | cons e entries ih =>
    have hkey := h.trimmed e.1 (by simp)
    have hfresh : e.1 ∉ arguments.map Prod.fst := by
      intro hmem
      have hnodup := h.nodup
      rw [List.map_append,List.nodup_append] at hnodup
      exact hnodup.2.2 e.1 hmem e.1 (by simp) rfl
    rw [queryArguments]
    simp only [stripText_of_trimmed hkey.1,if_neg hkey.2]
    rw [setEntry_fresh hfresh,ih (by simpa using h),List.append_assoc]
    rfl

/-- In front of the arguments stands a text without question mark: they are read back. -/
theorem splitPromptValue_clean {target tail : Text} (htarget : CodePoint.char '?' ∉ target)
    (htrimmed : Trimmed (target ++ tail)) (harguments : ArgumentKeys prompt.arguments)
    (htail : promptTail prompt = some tail) :
    splitPromptValue (target ++ tail) = .ok (target,prompt.arguments) := by
  rw [splitPromptValue,stripText_of_trimmed htrimmed]
  rw [promptTail] at htail
  by_cases hnone : prompt.arguments = []
  · rw [if_pos hnone] at htail
    cases htail
    rw [List.append_nil,splitFirst_free htarget,hnone]
  · rw [if_neg hnone] at htail
    obtain ⟨query,hquery,rfl⟩ := Option.map_eq_some_iff.mp htail
    rw [splitFirst_append htarget]
    simp only [parseQsl_urlencode hquery]
    rw [queryArguments_keys (by simpa using harguments)]
    rfl

/-- In front of the arguments stands a question mark: what follows it is read as a query. -/
theorem splitPromptValue_cut {front back text : Text} (hfront : CodePoint.char '?' ∉ front)
    (htext : text = front ++ .char '?'::back) (htrimmed : Trimmed text) :
    splitPromptValue text = (queryArguments (parseQsl back) []).map fun arguments =>
      (front,arguments) := by
  rw [splitPromptValue,stripText_of_trimmed htrimmed,htext,splitFirst_append hfront]

theorem trimmed_runtimePromptValue {tail : Text} (h : prompt.Checked servers)
    (htail : promptTail prompt = some tail) :
    Trimmed (prompt.server ++ .char ':'::(prompt.name ++ tail)) := by
  constructor
  · intro c hc
    rw [List.head?_append_of_ne_nil _ h.server_ne] at hc
    exact h.server_trimmed.head c hc
  · intro c hc
    rw [List.getLast?_append_of_ne_nil _ (List.cons_ne_nil _ _),
      List.getLast?_cons_of_ne_nil (by simp [h.name_ne])] at hc
    rw [promptTail] at htail
    by_cases hnone : prompt.arguments = []
    · rw [if_pos hnone] at htail
      cases htail
      rw [List.append_nil] at hc
      exact h.name_trimmed.last c hc
    · rw [if_neg hnone] at htail
      obtain ⟨query,hquery,rfl⟩ := Option.map_eq_some_iff.mp htail
      have hpoints : ∀ c ∈ CodePoint.char '?'::.char '&'::.char '='::quotedPoints,
          isSpacePoint c = false := by decide +kernel
      rw [List.getLast?_append_of_ne_nil _ (List.cons_ne_nil _ _)] at hc
      rcases List.mem_cons.mp (List.mem_of_getLast? hc) with rfl | hc
      · exact hpoints _ List.mem_cons_self
      · exact hpoints c (List.mem_cons_of_mem _ (mem_urlencode hquery hc))

theorem splitPromptValue_target {value target : Text} {arguments : List (Text × Text)}
    (h : splitPromptValue value = .ok (target,arguments)) :
    target = (splitFirst (.char '?') (stripText value)).1 := by
  rw [splitPromptValue] at h
  split at h
  · next heq =>
    rw [heq]
    cases h
    rfl
  · next heq =>
    rw [heq]
    cases hread : queryArguments (parseQsl _) [] with
    | error e =>
      rw [hread] at h
      cases h
    | ok read =>
      rw [hread] at h
      cases h
      rfl

theorem afterColon_append {server : Text} (h : CodePoint.char ':' ∉ server) (name : Text) :
    afterColon (server ++ .char ':'::name) = name := by
  rw [afterColon,splitFirst_append h]
  rfl

/-- With a colon in the server, what follows the first colon is longer than the name. -/
theorem afterColon_longer {server : Text} (h : CodePoint.char ':' ∈ server) (name : Text) :
    afterColon (server ++ .char ':'::name) ≠ name := by
  obtain ⟨front,back,rfl,hfront⟩ := exists_splitFirst h
  have hlater : afterColon (front ++ .char ':'::back ++ .char ':'::name) =
      back ++ .char ':'::name := by
    rw [List.append_assoc,List.cons_append,afterColon_append hfront]
  rw [hlater]
  intro heq
  have hlength := congrArg List.length heq
  simp only [List.length_append,List.length_cons] at hlength
  omega

theorem mem_afterColon {text : Text} {c : CodePoint} (h : c ∈ afterColon text) : c ∈ text := by
  rw [afterColon] at h
  cases hsplit : (splitFirst (.char ':') text).2 with
  | none =>
    rw [hsplit] at h
    cases h
  | some back =>
    rw [hsplit] at h
    rw [splitFirst_some (Prod.ext rfl hsplit)]
    exact List.mem_append_right _ (List.mem_cons_of_mem _ h)

theorem resolveSingleServerPrompt_ok {server value : Text} :
    resolveSingleServerPrompt server value = .ok resolved ↔
      ∃ target arguments, splitPromptValue value = .ok (target,arguments) ∧ target ≠ [] ∧
        if (server ++ [CodePoint.char ':']).isPrefixOf target then
          afterColon target ≠ [] ∧ ⟨server,afterColon target,arguments⟩ = resolved
        else ⟨server,target,arguments⟩ = resolved := by
  rw [resolveSingleServerPrompt,except_bind_ok]
  constructor
  · rintro ⟨⟨target,arguments⟩,hsplit,h⟩
    refine ⟨target,arguments,hsplit,?_⟩
    dsimp only at h
    by_cases hempty : target = []
    · rw [if_pos hempty] at h
      exact absurd h mcpFail_ne_ok
    rw [if_neg hempty] at h
    refine ⟨hempty,?_⟩
    by_cases hprefix : (server ++ [CodePoint.char ':']).isPrefixOf target = true
    · rw [if_pos hprefix] at h ⊢
      by_cases hname : afterColon target = []
      · rw [if_pos hname] at h
        exact absurd h mcpFail_ne_ok
      · rw [if_neg hname] at h
        exact ⟨hname,Except.ok.inj h⟩
    · rw [if_neg hprefix] at h ⊢
      exact Except.ok.inj h
  · rintro ⟨target,arguments,hsplit,hempty,h⟩
    refine ⟨(target,arguments),hsplit,?_⟩
    dsimp only
    rw [if_neg hempty]
    by_cases hprefix : (server ++ [CodePoint.char ':']).isPrefixOf target = true
    · rw [if_pos hprefix] at h ⊢
      rw [if_neg h.1,← h.2]
      rfl
    · rw [if_neg hprefix] at h ⊢
      rw [← h]
      rfl

theorem resolveServerPrompt_ok {value : Text} :
    resolveServerPrompt servers value = .ok resolved ↔
      ∃ target arguments name, splitPromptValue value = .ok (target,arguments) ∧
        splitFirst (.char ':') target = (resolved.server,some name) ∧
          resolved.server ∈ servers ∧ name ≠ [] ∧ ⟨resolved.server,name,arguments⟩ = resolved := by
  rw [resolveServerPrompt,except_bind_ok]
  constructor
  · rintro ⟨⟨target,arguments⟩,hsplit,h⟩
    dsimp only at h
    split at h
    · exact absurd h mcpFail_ne_ok
    · next server name htarget =>
      by_cases hserver : server ∉ servers
      · rw [if_pos hserver] at h
        cases h
      by_cases hname : name = []
      · rw [if_neg hserver,if_pos hname] at h
        exact absurd h mcpFail_ne_ok
      rw [if_neg hserver,if_neg hname] at h
      cases h
      exact ⟨target,arguments,name,hsplit,htarget,not_not.mp hserver,hname,rfl⟩
  · rintro ⟨target,arguments,name,hsplit,htarget,hserver,hname,h⟩
    refine ⟨(target,arguments),hsplit,?_⟩
    dsimp only
    rw [htarget]
    simp only [not_not.mpr hserver,hname,if_false]
    rw [h]
    rfl

/-- The resolution of one value, under the servers that are selected. -/
def resolvePrompt (servers : List Text) (value : Text) : Except McpError McpPromptSelection :=
  match servers with
  | [server] => resolveSingleServerPrompt server value
  | servers => resolveServerPrompt servers value

theorem resolvePrompt_many (hmany : ∀ server, servers ≠ [server]) (value : Text) :
    resolvePrompt servers value = resolveServerPrompt servers value := by
  rw [resolvePrompt]
  exact hmany

/-- No name is read with a question mark in it. -/
theorem resolvePrompt_name_clean {value : Text} (h : resolvePrompt servers value = .ok resolved) :
    CodePoint.char '?' ∉ resolved.name := by
  by_cases hone : ∃ server, servers = [server]
  · obtain ⟨server,rfl⟩ := hone
    obtain ⟨target,arguments,hsplit,_,h⟩ := resolveSingleServerPrompt_ok.mp h
    have hfree : CodePoint.char '?' ∉ target :=
      splitPromptValue_target hsplit ▸ splitFirst_fst_free _ _
    by_cases hprefix : (server ++ [CodePoint.char ':']).isPrefixOf target = true
    · rw [if_pos hprefix] at h
      rw [← h.2]
      exact fun hmem => hfree (mem_afterColon hmem)
    · rw [if_neg hprefix] at h
      rw [← h]
      exact hfree
  · rw [resolvePrompt_many (not_exists.mp hone),resolveServerPrompt_ok] at h
    obtain ⟨target,arguments,name,hsplit,htarget,_,_,h⟩ := h
    have hfree : CodePoint.char '?' ∉ target :=
      splitPromptValue_target hsplit ▸ splitFirst_fst_free _ _
    rw [← h]
    rw [splitFirst_some htarget] at hfree
    exact fun hmem => hfree (List.mem_append_right _ (List.mem_cons_of_mem _ hmem))

theorem isPrefixOf_server (server name : Text) :
    (server ++ [CodePoint.char ':']).isPrefixOf (server ++ .char ':'::name) = true := by
  rw [List.isPrefixOf_iff_prefix]
  exact ⟨name,by simp⟩

/-- Without question mark in server and name, the prompt comes back unless its server has a
colon. -/
theorem resolvePrompt_clean {tail : Text} (h : prompt.Checked servers)
    (htail : promptTail prompt = some tail) (hserver : CodePoint.char '?' ∉ prompt.server)
    (hname : CodePoint.char '?' ∉ prompt.name) :
    (∃ resolved, resolvePrompt servers (prompt.server ++ .char ':'::(prompt.name ++ tail)) =
      .ok resolved ∧ PromptComesBack prompt resolved) ↔ CodePoint.char ':' ∉ prompt.server := by
  have hsplit : splitPromptValue (prompt.server ++ .char ':'::(prompt.name ++ tail)) =
      .ok (prompt.server ++ .char ':'::prompt.name,prompt.arguments) := by
    have htarget : CodePoint.char '?' ∉ prompt.server ++ .char ':'::prompt.name := by
      simp [hserver,hname]
    have htrimmed := trimmed_runtimePromptValue h htail
    rw [← List.cons_append,← List.append_assoc] at htrimmed ⊢
    exact splitPromptValue_clean htarget htrimmed h.arguments htail
  constructor
  · rintro ⟨resolved,hresolved,hback⟩ hcolon
    by_cases hone : ∃ server, servers = [server]
    · obtain ⟨server,rfl⟩ := hone
      obtain ⟨target,arguments,hread,_,hresolved⟩ := resolveSingleServerPrompt_ok.mp hresolved
      cases hsplit.symm.trans hread
      rw [← List.mem_singleton.mp h.server_mem,if_pos (isPrefixOf_server _ _)] at hresolved
      exact afterColon_longer hcolon prompt.name ((congrArg _ hresolved.2).trans hback.name)
    · rw [resolvePrompt_many (not_exists.mp hone),resolveServerPrompt_ok] at hresolved
      obtain ⟨target,arguments,name,_,htarget,_⟩ := hresolved
      refine splitFirst_fst_free (CodePoint.char ':') target ?_
      rw [htarget,hback.server]
      exact hcolon
  · intro hcolon
    refine ⟨⟨prompt.server,prompt.name,prompt.arguments⟩,?_,rfl,rfl,fun key => rfl⟩
    by_cases hone : ∃ server, servers = [server]
    · obtain ⟨server,rfl⟩ := hone
      refine resolveSingleServerPrompt_ok.mpr ⟨_,_,hsplit,by simp,?_⟩
      rw [← List.mem_singleton.mp h.server_mem,if_pos (isPrefixOf_server _ _),
        afterColon_append hcolon]
      exact ⟨h.name_ne,rfl⟩
    · rw [resolvePrompt_many (not_exists.mp hone),resolveServerPrompt_ok]
      exact ⟨_,_,prompt.name,hsplit,splitFirst_append hcolon _,h.server_mem,h.name_ne,rfl⟩

/-- The server of the prompt is its name with a question mark and a text behind it, and that text,
with the rest of the prompt behind it, reads as the prompt's own arguments. -/
def PromptEchoes (prompt : McpPromptSelectionConfig) : Prop :=
  ∃ back tail arguments, prompt.server = prompt.name ++ .char '?'::back ∧
    CodePoint.char '?' ∉ prompt.name ∧ promptTail prompt = some tail ∧
      queryArguments (parseQsl (back ++ .char ':'::(prompt.name ++ tail))) [] = .ok arguments ∧
        ∀ key, arguments.lookup key = prompt.arguments.lookup key

/-- With a question mark in the server, the text is cut inside the server. -/
theorem resolvePrompt_cut {tail : Text} (h : prompt.Checked servers)
    (htail : promptTail prompt = some tail) (hmark : CodePoint.char '?' ∈ prompt.server) :
    (∃ resolved, resolvePrompt servers (prompt.server ++ .char ':'::(prompt.name ++ tail)) =
      .ok resolved ∧ PromptComesBack prompt resolved) ↔
        servers = [prompt.server] ∧ PromptEchoes prompt := by
  obtain ⟨front,back,hserver,hfront⟩ := exists_splitFirst hmark
  have hsplit := splitPromptValue_cut hfront
    (by rw [hserver,List.append_assoc,List.cons_append] :
      prompt.server ++ .char ':'::(prompt.name ++ tail) =
        front ++ .char '?'::(back ++ .char ':'::(prompt.name ++ tail)))
    (trimmed_runtimePromptValue h htail)
  have hshort : ∀ text, (prompt.server ++ text).isPrefixOf front = false := by
    intro text
    rw [← Bool.not_eq_true,List.isPrefixOf_iff_prefix]
    intro hprefix
    have hlength := hprefix.length_le
    rw [hserver] at hlength
    simp only [List.length_append,List.length_cons] at hlength
    omega
  constructor
  · rintro ⟨resolved,hresolved,hback⟩
    by_cases hone : ∃ server, servers = [server]
    · obtain ⟨server,rfl⟩ := hone
      have hsame := List.mem_singleton.mp h.server_mem
      refine ⟨by rw [hsame],?_⟩
      obtain ⟨target,arguments,hread,_,hresolved⟩ := resolveSingleServerPrompt_ok.mp hresolved
      rw [hread] at hsplit
      cases hquery : queryArguments (parseQsl (back ++ .char ':'::(prompt.name ++ tail))) [] with
      | error e =>
        rw [hquery] at hsplit
        cases hsplit
      | ok read =>
        rw [hquery] at hsplit
        cases hsplit
        rw [← hsame,if_neg (by rw [hshort]; exact Bool.false_ne_true)] at hresolved
        have hname : front = prompt.name := by rw [← hback.name,← hresolved]
        refine ⟨back,tail,arguments,hname ▸ hserver,hname ▸ hfront,htail,hquery,fun key => ?_⟩
        rw [← hback.arguments key,← hresolved]
    · rw [resolvePrompt_many (not_exists.mp hone),resolveServerPrompt_ok] at hresolved
      obtain ⟨target,arguments,name,hread,htarget,_⟩ := hresolved
      rw [hread] at hsplit
      have hcut : target = front := by
        cases hquery : queryArguments (parseQsl (back ++ .char ':'::(prompt.name ++ tail))) [] with
        | error e =>
          rw [hquery] at hsplit
          cases hsplit
        | ok read =>
          rw [hquery] at hsplit
          exact congrArg Prod.fst (Except.ok.inj hsplit)
      have hlonger := splitFirst_some htarget
      rw [hcut,hback.server] at hlonger
      have hprefix := hshort (.char ':'::name)
      rw [← hlonger] at hprefix
      rw [← Bool.not_eq_true,List.isPrefixOf_iff_prefix] at hprefix
      exact absurd (List.prefix_refl front) hprefix
  · rintro ⟨rfl,back',tail',arguments,hname,hclean,htail',hquery,hlookup⟩
    cases htail.symm.trans htail'
    have hparts := splitFirst_append hfront back
    rw [← hserver,hname,splitFirst_append hclean] at hparts
    cases hparts
    refine ⟨⟨prompt.server,prompt.name,arguments⟩,?_,rfl,rfl,hlookup⟩
    rw [hquery] at hsplit
    refine resolveSingleServerPrompt_ok.mpr ⟨_,_,hsplit,h.name_ne,?_⟩
    rw [if_neg (by rw [hshort]; exact Bool.false_ne_true)]

/-- The prompts whose text is read as what it was written from. -/
def PromptReadable (servers : List Text) (prompt : McpPromptSelectionConfig) : Prop :=
  (∀ e ∈ prompt.arguments, (∀ c ∈ e.1, ∃ char, c = .char char) ∧
    ∀ c ∈ e.2, ∃ char, c = .char char) ∧
  ((CodePoint.char ':' ∉ prompt.server ∧ CodePoint.char '?' ∉ prompt.server ∧
      CodePoint.char '?' ∉ prompt.name) ∨
    servers = [prompt.server] ∧ PromptEchoes prompt)

theorem promptComesBack_iff (h : prompt.Checked servers) :
    (∃ text resolved, runtimePromptValue prompt = .ok text ∧
      resolvePrompt servers text = .ok resolved ∧ PromptComesBack prompt resolved) ↔
        PromptReadable servers prompt := by
  rw [PromptReadable,← promptTail_isSome_iff]
  constructor
  · rintro ⟨text,resolved,htext,hresolved,hback⟩
    obtain ⟨tail,htail,rfl⟩ := runtimePromptValue_ok.mp htext
    refine ⟨by rw [htail]; rfl,?_⟩
    have hname := hback.name ▸ resolvePrompt_name_clean hresolved
    by_cases hmark : CodePoint.char '?' ∈ prompt.server
    · exact .inr ((resolvePrompt_cut h htail hmark).mp ⟨resolved,hresolved,hback⟩)
    · exact .inl ⟨(resolvePrompt_clean h htail hmark hname).mp ⟨resolved,hresolved,hback⟩,hmark,
        hname⟩
  · rintro ⟨hsome,hreadable⟩
    obtain ⟨tail,htail⟩ := Option.isSome_iff_exists.mp hsome
    have hcomes : ∃ resolved, resolvePrompt servers
        (prompt.server ++ .char ':'::(prompt.name ++ tail)) = .ok resolved ∧
          PromptComesBack prompt resolved := by
      rcases hreadable with ⟨hcolon,hmark,hname⟩ | ⟨hone,hechoes⟩
      · exact (resolvePrompt_clean h htail hmark hname).mpr hcolon
      · have hmark : CodePoint.char '?' ∈ prompt.server := by
          obtain ⟨back,_,_,hserver,_⟩ := hechoes
          rw [hserver]
          simp
        exact (resolvePrompt_cut h htail hmark).mpr ⟨hone,hechoes⟩
    obtain ⟨resolved,hresolved,hback⟩ := hcomes
    exact ⟨_,resolved,runtimePromptValue_ok.mpr ⟨tail,htail,rfl⟩,hresolved,hback⟩

end Prompts

section Resources

variable {servers : List Text} {resource : McpResourceSelectionConfig}
  {resolved : McpResourceSelection}

structure ResourceComesBack (resource : McpResourceSelectionConfig)
    (resolved : McpResourceSelection) : Prop where
  server : resolved.server = resource.server
  uri : resolved.uri = resource.uri

def resolveResource (servers : List Text) (value : Text) : Except McpError McpResourceSelection :=
  match servers with
  | [server] => resolveSingleServerResource server value
  | servers => resolveServerResource servers value

theorem resolveResource_many (hmany : ∀ server, servers ≠ [server]) (value : Text) :
    resolveResource servers value = resolveServerResource servers value := by
  rw [resolveResource]
  exact hmany

theorem isPrefixOf_scheme (server uri : Text) :
    (server ++ Text.of "://").isPrefixOf (server ++ .char ':'::uri) =
      (Text.of "//").isPrefixOf uri := by
  have hscheme : Text.of "://" = .char ':'::Text.of "//" := by decide
  rw [hscheme,Bool.eq_iff_iff,List.isPrefixOf_iff_prefix,List.isPrefixOf_iff_prefix,
    List.prefix_append_right_inj,List.cons_prefix_cons]
  simp

/-- The resources whose text is read as what it was written from. -/
def ResourceReadable (resource : McpResourceSelectionConfig) : Prop :=
  CodePoint.char ':' ∉ resource.server ∧ (Text.of "//").isPrefixOf resource.uri = false

theorem resourceComesBack_iff (h : resource.Checked servers) :
    (∃ resolved, resolveResource servers (runtimeResourceValue resource) = .ok resolved ∧
      ResourceComesBack resource resolved) ↔ ResourceReadable resource := by
  rw [ResourceReadable]
  by_cases hone : ∃ server, servers = [server]
  · obtain ⟨server,rfl⟩ := hone
    rw [resolveResource,← List.mem_singleton.mp h.server_mem,resolveSingleServerResource,
      runtimeResourceValue,isPrefixOf_server,isPrefixOf_scheme]
    by_cases hscheme : (Text.of "//").isPrefixOf resource.uri = false
    · rw [if_pos ⟨rfl,hscheme⟩]
      constructor
      · rintro ⟨resolved,hresolved,hback⟩
        refine ⟨fun hcolon => afterColon_longer hcolon resource.uri ?_,hscheme⟩
        by_cases hempty : afterColon (resource.server ++ .char ':'::resource.uri) = []
        · rw [if_pos hempty] at hresolved
          exact absurd hresolved mcpFail_ne_ok
        · rw [if_neg hempty] at hresolved
          exact (congrArg _ (Except.ok.inj hresolved)).trans hback.uri
      · rintro ⟨hcolon,_⟩
        rw [afterColon_append hcolon,if_neg h.uri_ne]
        exact ⟨_,rfl,rfl,rfl⟩
    · rw [if_neg (by simp [hscheme])]
      refine iff_of_false ?_ (fun hreadable => hscheme hreadable.2)
      rintro ⟨resolved,hresolved,hback⟩
      cases hresolved
      have hlength := congrArg List.length hback.uri
      simp only [List.length_append,List.length_cons] at hlength
      omega
  · rw [resolveResource_many (not_exists.mp hone),resolveServerResource,runtimeResourceValue]
    by_cases hcolon : CodePoint.char ':' ∈ resource.server
    · refine iff_of_false ?_ (fun hreadable => hreadable.1 hcolon)
      rintro ⟨resolved,hresolved,hback⟩
      obtain ⟨front,back,hserver,hfront⟩ := exists_splitFirst hcolon
      rw [hserver,List.append_assoc,List.cons_append,splitFirst_append hfront] at hresolved
      have hshort : resolved.server = front := by
        dsimp only at hresolved
        split_ifs at hresolved
        all_goals first | exact absurd hresolved mcpFail_ne_ok | cases hresolved
        rfl
      rw [hback.server,hserver] at hshort
      have hlength := congrArg List.length hshort
      simp only [List.length_append,List.length_cons] at hlength
      omega
    · rw [splitFirst_append hcolon]
      dsimp only
      rw [isPrefixOf_scheme,if_neg (not_not.mpr h.server_mem),if_neg h.uri_ne]
      by_cases hscheme : (Text.of "//").isPrefixOf resource.uri = true
      · rw [if_pos hscheme,hscheme]
        refine iff_of_false ?_ (by simp)
        rintro ⟨resolved,hresolved,_⟩
        exact absurd hresolved mcpFail_ne_ok
      · rw [if_neg hscheme]
        rw [Bool.not_eq_true] at hscheme
        exact iff_of_true ⟨_,rfl,rfl,rfl⟩ ⟨hcolon,hscheme⟩

end Resources

section Selections

variable {selection : McpSelectionConfig} {servers texts : List Text}

theorem dedupeTexts_nodup {values result : List Text} (h : (result ++ values).Nodup) :
    dedupeTexts values result = result ++ values := by
  induction values generalizing result with
  | nil => rw [dedupeTexts,List.append_nil]
  | cons value values ih =>
    have hfresh : value ∉ result := by
      intro hmem
      rw [List.nodup_append] at h
      exact h.2.2 value hmem value List.mem_cons_self rfl
    rw [dedupeTexts,if_neg hfresh,ih (by simpa using h)]
    simp

theorem resolveMcpPromptSelections_eq (hnodup : servers.Nodup) (h : texts ≠ [] → servers ≠ []) :
    resolveMcpPromptSelections servers texts = texts.mapM (resolvePrompt servers) := by
  rw [resolveMcpPromptSelections]
  by_cases hnone : texts = []
  · rw [if_pos hnone,hnone]
    rfl
  · rw [if_neg hnone,if_neg (h hnone),dedupeTexts_nodup (by simpa using hnodup),List.nil_append]
    match servers with
    | [] => rfl
    | [_] => rfl
    | _::_::_ => rfl

theorem resolveMcpResourceSelections_eq (hnodup : servers.Nodup) (h : texts ≠ [] → servers ≠ []) :
    resolveMcpResourceSelections servers texts = texts.mapM (resolveResource servers) := by
  rw [resolveMcpResourceSelections]
  by_cases hnone : texts = []
  · rw [if_pos hnone,hnone]
    rfl
  · rw [if_neg hnone,if_neg (h hnone),dedupeTexts_nodup (by simpa using hnodup),List.nil_append]
    match servers with
    | [] => rfl
    | [_] => rfl
    | _::_::_ => rfl

/-- What the runtime resolves under the selected servers is what has been selected, in order. -/
def McpSelectionConfig.Survives (selection : McpSelectionConfig) : Prop :=
  ∃ texts prompts resources, selection.toRuntimePrompts = .ok texts ∧
    resolveMcpPromptSelections selection.servers texts = .ok prompts ∧
    resolveMcpResourceSelections selection.servers selection.toRuntimeResources = .ok resources ∧
    List.Forall₂ PromptComesBack selection.prompts prompts ∧
    List.Forall₂ ResourceComesBack selection.resources resources

theorem McpSelectionConfig.Checked.survives_iff (h : selection.Checked) : selection.Survives ↔
    (∀ prompt ∈ selection.prompts, PromptReadable selection.servers prompt) ∧
      ∀ resource ∈ selection.resources, ResourceReadable resource := by
  have hprompts : (∃ texts prompts, selection.toRuntimePrompts = .ok texts ∧
      resolveMcpPromptSelections selection.servers texts = .ok prompts ∧
      List.Forall₂ PromptComesBack selection.prompts prompts) ↔
        ∀ prompt ∈ selection.prompts, PromptReadable selection.servers prompt := by
    rw [← forall₂_congr fun prompt hprompt => promptComesBack_iff (h.prompts prompt hprompt),
      ← mapM_mapM_ok]
    refine exists_congr fun texts => exists_congr fun prompts => and_congr_right fun htexts => ?_
    rw [resolveMcpPromptSelections_eq h.servers_nodup]
    intro hne
    cases hselected : selection.prompts with
    | nil =>
      rw [McpSelectionConfig.toRuntimePrompts,hselected] at htexts
      cases htexts
      exact absurd rfl hne
    | cons prompt prompts =>
      exact List.ne_nil_of_mem (h.prompts prompt (by rw [hselected]; simp)).server_mem
  have hresources : (∃ resources, resolveMcpResourceSelections selection.servers
      selection.toRuntimeResources = .ok resources ∧
      List.Forall₂ ResourceComesBack selection.resources resources) ↔
        ∀ resource ∈ selection.resources, ResourceReadable resource := by
    rw [← forall₂_congr fun resource hresource =>
      resourceComesBack_iff (h.resources resource hresource),← map_mapM_ok]
    refine exists_congr fun resources => ?_
    rw [resolveMcpResourceSelections_eq h.servers_nodup]
    · rfl
    intro hne
    cases hselected : selection.resources with
    | nil =>
      rw [McpSelectionConfig.toRuntimeResources,hselected] at hne
      exact absurd rfl hne
    | cons resource resources =>
      exact List.ne_nil_of_mem (h.resources resource (by rw [hselected]; simp)).server_mem
  rw [← hprompts,← hresources]
  constructor
  · rintro ⟨texts,prompts,resources,htexts,hread,hreadResources,hback,hbackResources⟩
    exact ⟨⟨texts,prompts,htexts,hread,hback⟩,resources,hreadResources,hbackResources⟩
  · rintro ⟨⟨texts,prompts,htexts,hread,hback⟩,resources,hreadResources,hbackResources⟩
    exact ⟨texts,prompts,resources,htexts,hread,hreadResources,hback,hbackResources⟩

/-- A selection that has been accepted comes back from its text form exactly if the delimiters
are where they are looked for. -/
theorem selection_survives_iff (isPrintable : CodePoint → Bool)
    (payload : Option (List (Text × PyJson)))
    (h : McpSelectionConfig.fromPayload isPrintable payload = .ok (some selection)) :
    selection.Survives ↔
      (∀ prompt ∈ selection.prompts, PromptReadable selection.servers prompt) ∧
        ∀ resource ∈ selection.resources, ResourceReadable resource :=
  (fromPayload_checked h).survives_iff

def debugPrompt : McpPromptSelectionConfig :=
  ⟨Text.of "k8s",Text.of "debug",[(Text.of "service",Text.of "api?a=b")]⟩

def debugSelection : McpSelectionConfig :=
  ⟨[Text.of "k8s",Text.of "docs"],[debugPrompt],[⟨Text.of "docs",Text.of "guide:intro"⟩]⟩

def debugPayload : List (Text × PyJson) :=
  [(Text.of "servers",.array [.string (Text.of " k8s"),.string (Text.of "docs")]),
    (Text.of "prompts",.array [.object [(Text.of "server",.string (Text.of "k8s")),
      (Text.of "name",.string (Text.of "debug ")),
      (Text.of "arguments",.object [(Text.of "service",.string (Text.of "api?a=b"))])]]),
    (Text.of "resources",.array [.object [(Text.of "server",.string (Text.of "docs")),
      (Text.of "uri",.string (Text.of "guide:intro"))]])]

theorem selection_survives_iff_sample : debugSelection.Survives := by
  have hpoints (s : String) : ∀ c ∈ Text.of s, ∃ char, c = .char char := by
    intro c hc
    obtain ⟨char,_,rfl⟩ := List.mem_map.mp hc
    exact ⟨char,rfl⟩
  refine (selection_survives_iff (fun _ => true) (some debugPayload) (by decide +kernel)).mpr
    ⟨fun prompt hprompt => ⟨fun e he => ?_,.inl ?_⟩,fun resource hresource => ?_⟩
  · rw [List.mem_singleton.mp hprompt] at he
    rw [List.mem_singleton.mp he]
    exact ⟨hpoints "service",hpoints "api?a=b"⟩
  · rw [List.mem_singleton.mp hprompt]
    decide +kernel
  · rw [List.mem_singleton.mp hresource,ResourceReadable]
    decide +kernel

end Selections

end VermayAgent
