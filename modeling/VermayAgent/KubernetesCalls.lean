import Mathlib
import VermayAgent.RemoteKubernetes

/-! What the Kubernetes tools act on.
An argument that begins with a hyphen is an option for `kubectl`, and no argument is kept apart
from the options. -/
namespace VermayAgent
open Library.Shell

/-- A call that its argument schema accepts. -/
inductive KubernetesCall
  | get (resource : KubectlGetResource) (namespaceName : Option String)
  | describe (resource : KubectlDescribeResource) (name : String) (namespaceName : Option String)
  | delete (resource : KubectlDeleteResource) (name : String) (namespaceName : Option String)

namespace KubernetesCall

def toolName : KubernetesCall → String
  | get .. => "ssh_kubectl_get"
  | describe .. => "ssh_kubectl_describe"
  | delete .. => "delete_resource"

/-- The arguments as the model gave them. -/
def arguments : KubernetesCall → List (String × String)
  | get resource namespaceName =>
    ("resource",resource.value)::(namespaceName.map ("namespace",·)).toList
  | describe resource name namespaceName =>
    [("resource",resource.value),("name",name)] ++ (namespaceName.map ("namespace",·)).toList
  | delete resource name namespaceName =>
    [("resource",resource.value),("name",name)] ++ (namespaceName.map ("namespace",·)).toList

/-- The function behind the tool, with its defaults. -/
def sshCommand : KubernetesCall → Except PyException SshCommand
  | get resource namespaceName => sshKubectlGet resource.value (namespaceName.getD "all")
  | describe resource name namespaceName =>
    sshKubectlDescribe resource.value name (namespaceName.getD "default")
  | delete resource name namespaceName =>
    deleteResource resource.value name (namespaceName.getD "default")

/-- The arguments that the tool builds. -/
def args : KubernetesCall → List String
  | get resource namespaceName => kubectlGetArgs resource (namespaceName.getD "all")
  | describe resource name namespaceName =>
    kubectlDescribeArgs resource name (namespaceName.getD "default")
  | delete resource name namespaceName =>
    kubectlDeleteArgs resource name (namespaceName.getD "default")

/-- The strings of the model that are among them. -/
def passed : KubernetesCall → List String
  | get _ namespaceName =>
    if namespaceName.getD "all" = "all" then [] else [namespaceName.getD "all"]
  | describe resource name namespaceName =>
    if resource = .node then [name] else [name,namespaceName.getD "default"]
  | delete _ name namespaceName => [name,namespaceName.getD "default"]

/-- The options that the tool itself writes. -/
def options : KubernetesCall → List String
  | get _ namespaceName => [if namespaceName.getD "all" = "all" then "-A" else "-n","-o"]
  | describe resource .. => if resource = .node then [] else ["-n"]
  | delete .. => ["-n"]

end KubernetesCall

section Summary

/-- `_argument_text` on arguments that are texts. -/
def argumentText (arguments : List (String × String)) (key fallback : String) : String :=
  (arguments.lookup key).getD fallback

/-- `_truncate`. -/
def truncatePreview (value : String) (maxChars : ℕ) : String :=
  if value.length ≤ maxChars then value else firstChars (maxChars - 3) value ++ "..."

/-- `_approval_summary`. -/
def approvalSummary (toolName : String) (arguments : List (String × String))
    (metadata : ToolMetadata) : String :=
  if toolName = "delete_resource" ∧ metadata.category = "kubernetes" then
    "Delete Kubernetes " ++ argumentText arguments "resource" "resource" ++ ": " ++
      argumentText arguments "namespace" "default" ++ "/" ++ argumentText arguments "name" "unknown"
  else if metadata.category = "shell" then
    "Run local shell command: " ++
      truncatePreview (argumentText arguments "command" "<empty command>") 120
  else if metadata.destructive then "Approve destructive tool call: " ++ toolName
  else if metadata.sideEffectLevel = "remote" then
    "Approve remote side-effect tool call: " ++ toolName
  else "Approve tool call: " ++ toolName

/-- How the tool that deletes is registered. -/
def deleteResourceMetadata : ToolMetadata :=
  ⟨"builtin","kubernetes","remote",false,"destructive",true,true⟩

end Summary

/-- An object of the cluster; a node has no namespace. -/
structure KubernetesObject where
  resource : String
  namespaceName : Option String
  name : String
deriving DecidableEq

namespace KubernetesObject

def shown (o : KubernetesObject) : String :=
  "Delete Kubernetes " ++ o.resource ++ ": " ++ o.namespaceName.getD "" ++ "/" ++ o.name

end KubernetesObject

/-- The object that a call names. -/
def KubernetesCall.object : KubernetesCall → Option KubernetesObject
  | get .. => none
  | describe resource name namespaceName => some ⟨resource.value,
      if resource = .node then none else some (namespaceName.getD "default"),name⟩
  | delete resource name namespaceName =>
    some ⟨resource.value,some (namespaceName.getD "default"),name⟩

section Kubectl

/-- `kubectl` takes the argument for an option. -/
def isOption (arg : String) : Bool := arg.toList.head? = some '-'

/-- What `kubectl` is asked for. -/
structure KubectlRequest where
  positional : List String := []
  namespaceName : Option String := none
  allNamespaces : Bool := false

/-- The request that arguments are, where no option but those of the tools is among them. -/
def readRequest : List String → Option KubectlRequest
  | [] => some {}
  | "-A"::rest => (readRequest rest).map fun r => {r with allNamespaces := true}
  | "-n"::v::rest =>
    if isOption v then none else (readRequest rest).map fun r => {r with namespaceName := some v}
  | "-o"::v::rest => if isOption v then none else readRequest rest
  | arg::rest =>
    if isOption arg then none
    else (readRequest rest).map fun r => {r with positional := arg::r.positional}

/-- The objects that a request is about: those named, or all where none is named. -/
def KubectlRequest.objects (r : KubectlRequest) : Set KubernetesObject :=
  {o | (r.allNamespaces = true ∨ o.namespaceName = r.namespaceName) ∧
    ∃ verb resource names, r.positional = verb::resource::names ∧ o.resource = resource ∧
      (names = [] ∨ o.name ∈ names)}

/-- What `kubectl` may act on. An option that no tool writes may extend a request to anything. -/
def mayTouch (argv : List String) : Set KubernetesObject :=
  match readRequest argv with
  | some r => r.objects
  | none => Set.univ

end Kubectl

section Options

variable {c : KubernetesCall}

theorem KubectlGetResource.isOption_value (r : KubectlGetResource) : isOption r.value = false := by
  cases r <;> rfl

theorem KubectlDescribeResource.isOption_value (r : KubectlDescribeResource) :
    isOption r.value = false := by
  cases r <;> rfl

theorem KubectlDeleteResource.isOption_value (r : KubectlDeleteResource) :
    isOption r.value = false := by
  cases r <;> rfl

theorem KubectlDescribeResource.value_node (r : KubectlDescribeResource) :
    r.value = "node" ↔ r = .node := by
  cases r <;> decide

/-- The functions run `kubectl` with the arguments that the tool builds. -/
theorem KubernetesCall.sshCommand_args (c : KubernetesCall) : ∃ seconds,
    c.sshCommand = .ok ⟨seconds,remoteKubectlCommand c.args⟩ := by
  cases c with
  | get resource namespaceName => exact ⟨20,by cases resource <;> rfl⟩
  | describe resource name namespaceName => exact ⟨30,by cases resource <;> rfl⟩
  | delete resource name namespaceName => exact ⟨30,by cases resource <;> rfl⟩

theorem isOption_written : isOption "-n" = true ∧ isOption "-A" = true ∧ isOption "-o" = true ∧
    isOption "wide" = false ∧ isOption "get" = false ∧ isOption "describe" = false ∧
    isOption "delete" = false ∧ isOption "node" = false := by
  decide +kernel

/-- `kubectl` reads the options of the tool and no others unless a string of the model is one. -/
theorem options_iff (c : KubernetesCall) :
    c.args.filter isOption = c.options ↔ ∀ s ∈ c.passed, isOption s = false := by
  have hwritten := isOption_written
  cases c with
  | get resource namespaceName =>
    have hvalue := resource.isOption_value
    by_cases hall : namespaceName.getD "all" = "all"
    · simp [KubernetesCall.args,KubernetesCall.options,KubernetesCall.passed,kubectlGetArgs,hall,
        hvalue,hwritten]
    · simp only [KubernetesCall.args,KubernetesCall.options,KubernetesCall.passed,kubectlGetArgs,
        if_neg hall]
      cases h : isOption (namespaceName.getD "all") <;> simp [hvalue,hwritten,h]
  | describe resource name namespaceName =>
    have hvalue := resource.isOption_value
    by_cases hnode : resource = .node
    · subst hnode
      cases h : isOption name <;> simp [KubernetesCall.args,KubernetesCall.options,
        KubernetesCall.passed,kubectlDescribeArgs,KubectlDescribeResource.value,hwritten,h]
    · have hnot : resource.value ≠ "node" := fun h => hnode (resource.value_node.mp h)
      simp only [KubernetesCall.args,KubernetesCall.options,KubernetesCall.passed,
        kubectlDescribeArgs,if_neg hnode,if_neg hnot]
      cases h : isOption name <;> cases h' : isOption (namespaceName.getD "default") <;>
        simp [hvalue,hwritten,h,h']
  | delete resource name namespaceName =>
    have hvalue := resource.isOption_value
    simp only [KubernetesCall.args,KubernetesCall.options,KubernetesCall.passed,
      kubectlDeleteArgs]
    cases h : isOption name <;> cases h' : isOption (namespaceName.getD "default") <;>
      simp [hvalue,hwritten,h,h']

theorem readRequest_positional {arg : String} (h : isOption arg = false) (rest : List String) :
    readRequest (arg::rest) =
      (readRequest rest).map fun r => {r with positional := arg::r.positional} := by
  have hwritten := isOption_written
  rw [readRequest.eq_def]
  split
  · next heq => cases heq
  · next heq =>
    cases heq
    rw [hwritten.2.1] at h
    cases h
  · next heq =>
    cases heq
    rw [hwritten.1] at h
    cases h
  · next heq =>
    cases heq
    rw [hwritten.2.2.1] at h
    cases h
  · next heq =>
    cases heq
    rw [h]
    rfl

theorem readRequest_namespace {v : String} (h : isOption v = false) :
    readRequest ["-n",v] = some ⟨[],some v,false⟩ := by
  rw [readRequest,h]
  rfl

theorem objects_named (verb resource name : String) (ns : Option String) :
    (⟨[verb,resource,name],ns,false⟩ : KubectlRequest).objects ⊆ {⟨resource,ns,name⟩} := by
  rintro ⟨r,ns',n⟩ ⟨hns,_,_,_,hpos,hr,hn⟩
  cases hpos
  cases hr
  simp only [Bool.false_eq_true,false_or] at hns
  simp only [List.cons_ne_nil,List.mem_singleton,false_or] at hn
  subst hns hn
  rfl

/-- Without options of the model a call is about the object that it names. -/
theorem mayTouch_args {o : KubernetesObject} (ho : c.object = some o)
    (h : ∀ s ∈ c.passed, isOption s = false) : mayTouch c.args ⊆ {o} := by
  have hread : ∀ {verb resource name ns : String}, isOption verb = false →
      isOption resource = false → isOption name = false → isOption ns = false →
        readRequest [verb,resource,name,"-n",ns] = some ⟨[verb,resource,name],some ns,false⟩ := by
    intro verb resource name ns hverb hresource hname hns
    rw [readRequest_positional hverb,readRequest_positional hresource,
      readRequest_positional hname,readRequest_namespace hns]
    rfl
  obtain ⟨_,_,_,_,_,hdescribe,hdelete,hnode⟩ := isOption_written
  cases c with
  | get resource namespaceName => cases ho
  | describe resource name namespaceName =>
    cases ho
    by_cases hnodes : resource = .node
    · subst hnodes
      have hname := h name (by simp [KubernetesCall.passed])
      have hrequest : readRequest ["describe","node",name] =
          some ⟨["describe","node",name],none,false⟩ := by
        rw [readRequest_positional hdescribe,readRequest_positional hnode,
          readRequest_positional hname]
        rfl
      change mayTouch ["describe","node",name] ⊆ {⟨"node",none,name⟩}
      rw [mayTouch,hrequest]
      exact objects_named "describe" "node" name none
    · have hname := h name (by simp [KubernetesCall.passed,hnodes])
      have hns := h (namespaceName.getD "default") (by simp [KubernetesCall.passed,hnodes])
      have hnot : resource.value ≠ "node" := fun h => hnodes (resource.value_node.mp h)
      rw [KubernetesCall.args,kubectlDescribeArgs,if_neg hnot,mayTouch,
        hread hdescribe resource.isOption_value hname hns,if_neg hnodes]
      exact objects_named "describe" resource.value name (some (namespaceName.getD "default"))
  | delete resource name namespaceName =>
    cases ho
    have hname := h name List.mem_cons_self
    have hns := h (namespaceName.getD "default") (List.mem_cons_of_mem _ List.mem_cons_self)
    rw [KubernetesCall.args,kubectlDeleteArgs,mayTouch,
      hread hdelete resource.isOption_value hname hns]
    exact objects_named "delete" resource.value name (some (namespaceName.getD "default"))

end Options

/-- What is run for a call acts on nothing but what the call names: `kubectl` is given the
arguments that the tool builds and takes no string of the model for an option. -/
def KubernetesCall.TouchesOnlyNamed (c : KubernetesCall) : Prop :=
  ∀ command text, c.sshCommand = .ok command → command.spawned = some text →
    ∀ world : World, ∃ events outcome, world.run text.toList = some (events,outcome) ∧
      ∀ argv ∈ received events, argv = c.args ∧ argv.filter isOption = c.options ∧
        ∀ o, c.object = some o → mayTouch argv ⊆ {o}

theorem null_mem_args (c : KubernetesCall) :
    (∃ s ∈ c.args, '\x00' ∈ s.toList) ↔ ∃ s ∈ c.passed, '\x00' ∈ s.toList := by
  cases c with
  | get resource namespaceName =>
    have hvalue : '\x00' ∉ resource.value.toList := by cases resource <;> decide
    by_cases hall : namespaceName.getD "all" = "all"
    · simp [KubernetesCall.args,kubectlGetArgs,KubernetesCall.passed,hall,hvalue]
    · simp [KubernetesCall.args,kubectlGetArgs,KubernetesCall.passed,hall,hvalue]
  | describe resource name namespaceName =>
    have hvalue : '\x00' ∉ resource.value.toList := by cases resource <;> decide
    by_cases hnode : resource = .node
    · simp [KubernetesCall.args,kubectlDescribeArgs,KubernetesCall.passed,
        KubectlDescribeResource.value,hnode]
    · have hnot : resource.value ≠ "node" := fun h => hnode (resource.value_node.mp h)
      simp [KubernetesCall.args,kubectlDescribeArgs,KubernetesCall.passed,hnode,hnot,hvalue]
  | delete resource name namespaceName =>
    have hvalue : '\x00' ∉ resource.value.toList := by cases resource <;> decide
    simp [KubernetesCall.args,kubectlDeleteArgs,KubernetesCall.passed,hvalue]

theorem touches_iff (c : KubernetesCall) : c.TouchesOnlyNamed ↔
    (∃ s ∈ c.passed, '\x00' ∈ s.toList) ∨ ∀ s ∈ c.passed, isOption s = false := by
  obtain ⟨seconds,hcommand⟩ := c.sshCommand_args
  by_cases hnull : ∃ s ∈ c.passed, '\x00' ∈ s.toList
  · refine ⟨fun _ => .inl hnull,fun _ command text hok hspawn => ?_⟩
    rw [hcommand] at hok
    cases hok
    rw [SshCommand.spawned,if_pos (null_mem_remote.mpr ((null_mem_args c).mpr hnull))] at hspawn
    cases hspawn
  · rw [or_iff_right hnull,← options_iff]
    have hspawn : (⟨seconds,remoteKubectlCommand c.args⟩ : SshCommand).spawned =
        some (remoteKubectlCommand c.args) :=
      if_neg fun h => hnull ((null_mem_args c).mp (null_mem_remote.mp h))
    constructor
    · intro h
      obtain ⟨events,outcome,hrun,hargv⟩ :=
        h _ _ hcommand hspawn ⟨fun w => [w.text],Word.text,fun _ _ => 0⟩
      obtain ⟨events',outcome',hrun',hreceived⟩ :=
        received_remote ⟨fun w => [w.text],Word.text,fun _ _ => 0⟩ c.args
      rw [hrun] at hrun'
      cases hrun'
      rw [if_pos (.inl rfl)] at hreceived
      exact (hargv c.args (hreceived ▸ List.mem_singleton_self _)).2.1
    · intro hoptions command text hok hspawned world
      rw [hcommand] at hok
      cases hok
      rw [hspawn] at hspawned
      cases hspawned
      obtain ⟨events,outcome,hrun,hreceived⟩ := received_remote world c.args
      refine ⟨events,outcome,hrun,fun argv hargv => ?_⟩
      have hsame : argv = c.args := by
        rw [hreceived] at hargv
        split at hargv
        · exact List.mem_singleton.mp hargv
        · cases hargv
      subst hsame
      exact ⟨rfl,hoptions,fun o ho => mayTouch_args ho ((options_iff c).mp hoptions)⟩

/-- The summary shows the object that a deletion names. -/
theorem summary_delete (resource : KubectlDeleteResource) (name : String)
    (namespaceName : Option String) :
    approvalSummary "delete_resource"
      (KubernetesCall.delete resource name namespaceName).arguments deleteResourceMetadata =
        KubernetesObject.shown ⟨resource.value,some (namespaceName.getD "default"),name⟩ := by
  have hresource : argumentText (KubernetesCall.delete resource name namespaceName).arguments
      "resource" "resource" = resource.value := by rfl
  have hname : argumentText (KubernetesCall.delete resource name namespaceName).arguments
      "name" "unknown" = name := by rfl
  have hnamespace : argumentText (KubernetesCall.delete resource name namespaceName).arguments
      "namespace" "default" = namespaceName.getD "default" := by
    cases namespaceName <;> rfl
  rw [approvalSummary,if_pos ⟨rfl,rfl⟩,hresource,hname,hnamespace]
  rfl

end VermayAgent
