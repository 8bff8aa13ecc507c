import Mathlib
import VermayAgent.InvocationLedger
import VermayAgent.Library.ShellCommands

/-! What a Kubernetes tool makes a remote shell run.
Every argument is quoted for the shell, so that `kubectl` is given the arguments as they are,
however it is installed. -/
namespace VermayAgent
open Library.Shell

inductive KubectlGetResource
  | pods | services | deployments | nodes | namespaces | events | certificates | challenges
  | orders | certificaterequests
deriving DecidableEq

inductive KubectlDescribeResource
  | pod | service | deployment | node | certificate | challenge | order | certificaterequest
deriving DecidableEq

inductive KubectlDeleteResource
  | pod | service | deployment | statefulset | daemonset | job | cronjob
deriving DecidableEq

namespace KubectlGetResource

def value : KubectlGetResource → String
  | pods => "pods" | services => "services" | deployments => "deployments" | nodes => "nodes"
  | namespaces => "namespaces" | events => "events" | certificates => "certificates"
  | challenges => "challenges" | orders => "orders" | certificaterequests => "certificaterequests"

def members : List KubectlGetResource :=
  [pods,services,deployments,nodes,namespaces,events,certificates,challenges,orders,
    certificaterequests]

end KubectlGetResource

namespace KubectlDescribeResource

def value : KubectlDescribeResource → String
  | pod => "pod" | service => "service" | deployment => "deployment" | node => "node"
  | certificate => "certificate" | challenge => "challenge" | order => "order"
  | certificaterequest => "certificaterequest"

def members : List KubectlDescribeResource :=
  [pod,service,deployment,node,certificate,challenge,order,certificaterequest]

end KubectlDescribeResource

namespace KubectlDeleteResource

def value : KubectlDeleteResource → String
  | pod => "pod" | service => "service" | deployment => "deployment"
  | statefulset => "statefulset" | daemonset => "daemonset" | job => "job" | cronjob => "cronjob"

def members : List KubectlDeleteResource :=
  [pod,service,deployment,statefulset,daemonset,job,cronjob]

end KubectlDeleteResource

section Commands

/-- `shlex.quote`. -/
def shlexQuote (arg : String) : String := String.ofList (quote arg.toList)

def remoteKubectlCommand (args : List String) : String :=
  let quotedArgs := String.intercalate " " (args.map shlexQuote)
  "PATH=/snap/bin:/usr/local/bin:/usr/bin:/bin:$PATH; " ++
  "if command -v kubectl >/dev/null 2>&1; then " ++
  "kubectl " ++ quotedArgs ++ "; " ++
  "elif command -v microk8s >/dev/null 2>&1; then " ++
  "microk8s kubectl " ++ quotedArgs ++ "; " ++
  "elif [ -x /snap/bin/microk8s ]; then " ++
  "/snap/bin/microk8s kubectl " ++ quotedArgs ++ "; " ++
  "else " ++
  "echo 'kubectl not found: tried kubectl, microk8s kubectl, /snap/bin/microk8s kubectl' >&2; " ++
  "exit 127; " ++
  "fi"

/-- A command for `SshClient.run`, with the time that it is given. -/
structure SshCommand where
  timeoutSeconds : ℕ := 20
  remoteCommand : String
deriving DecidableEq

/-- The arguments that each tool gives to `kubectl`. -/
def kubectlGetArgs (resource : KubectlGetResource) (namespaceName : String) : List String :=
  ["get",resource.value] ++
    (if namespaceName = "all" then ["-A"] else ["-n",namespaceName]) ++ ["-o","wide"]

def kubectlDescribeArgs (resource : KubectlDescribeResource) (name namespaceName : String) :
    List String :=
  if resource.value = "node" then ["describe","node",name]
  else ["describe",resource.value,name,"-n",namespaceName]

def kubectlDeleteArgs (resource : KubectlDeleteResource) (name namespaceName : String) :
    List String :=
  ["delete",resource.value,name,"-n",namespaceName]

def unsupported (resource : String) : PyException :=
  .valueError ("unsupported resource: " ++ resource)

def sshKubectlGet (resource namespaceName : String) : Except PyException SshCommand :=
  match KubectlGetResource.members.find? fun r => r.value = resource with
  | none => .error (unsupported resource)
  | some r => .ok {remoteCommand := remoteKubectlCommand (kubectlGetArgs r namespaceName)}

def sshKubectlDescribe (resource name namespaceName : String) : Except PyException SshCommand :=
  match KubectlDescribeResource.members.find? fun r => r.value = resource with
  | none => .error (unsupported resource)
  | some r => .ok ⟨30,remoteKubectlCommand (kubectlDescribeArgs r name namespaceName)⟩

def deleteResource (resource name namespaceName : String) : Except PyException SshCommand :=
  match KubectlDeleteResource.members.find? fun r => r.value = resource with
  | none => .error (unsupported resource)
  | some r => .ok ⟨30,remoteKubectlCommand (kubectlDeleteArgs r name namespaceName)⟩

/-- What `subprocess.Popen` hands to `ssh`; an argument with a null character is refused. -/
def SshCommand.spawned (c : SshCommand) : Option String :=
  if '\x00' ∈ c.remoteCommand.toList then none else some c.remoteCommand

end Commands

/-- The arguments of the calls of `kubectl`, however it is installed. -/
def kubectlArgv : Event → Option (List String)
  | .call ("kubectl"::args) _ => some args
  | .call ("microk8s"::"kubectl"::args) _ => some args
  | .call ("/snap/bin/microk8s"::"kubectl"::args) _ => some args
  | _ => none

def received (events : List Event) : List (List String) := events.filterMap kubectlArgv

section Script

/-- A word without quotes. -/
def bare (s : String) : Word := s.toList.map (Letter.mk false)

def quotedArgs (args : List String) : List Word := args.map fun s => quotedWord s.toList

def silent : List Redirect :=
  [⟨none,.great,bare "/dev/null"⟩,⟨some (bare "2"),.greatAnd,bare "1"⟩]

def silentTokens : List Token :=
  [.operator .great,.word (bare "/dev/null"),.number (bare "2"),.operator .greatAnd,
    .word (bare "1")]

def pathWord : Word := bare "/snap/bin:/usr/local/bin:/usr/bin:/bin:$PATH"

def noticeText : String :=
  "kubectl not found: tried kubectl, microk8s kubectl, /snap/bin/microk8s kubectl"

def noticeWord : Word := quotedWord noticeText.toList

def probe (name : String) : Script :=
  .simple ⟨[],[bare "command",bare "-v",bare name],silent⟩ .done

def snapTest : Script :=
  .simple ⟨[],[bare "[",bare "-x",bare "/snap/bin/microk8s",bare "]"],[]⟩ .done

def kubectlCall (names args : List String) : Script :=
  .simple ⟨[],names.map bare ++ quotedArgs args,[]⟩ .done

def notice : Script :=
  .simple ⟨[],[bare "echo",noticeWord],[⟨none,.greatAnd,bare "2"⟩]⟩
    (.simple ⟨[],[bare "exit",bare "127"],[]⟩ .done)

/-- The script that the remote command is. -/
def remoteScript (args : List String) : Script :=
  .simple ⟨[("PATH",pathWord)],[],[]⟩
    (.branch (probe "kubectl") (kubectlCall ["kubectl"] args)
      (.branch (probe "microk8s") (kubectlCall ["microk8s","kubectl"] args)
        (.branch snapTest (kubectlCall ["/snap/bin/microk8s","kubectl"] args) notice .done)
        .done)
      .done)

def kubectlTokens : List Token :=
  [.word (bare "PATH=/snap/bin:/usr/local/bin:/usr/bin:/bin:$PATH"),.operator .semi,
    .word (bare "if"),.word (bare "command"),.word (bare "-v"),.word (bare "kubectl")] ++
  silentTokens ++ [.operator .semi,.word (bare "then"),.word (bare "kubectl")]

def microk8sTokens : List Token :=
  [.word (bare "elif"),.word (bare "command"),.word (bare "-v"),.word (bare "microk8s")] ++
  silentTokens ++
  [.operator .semi,.word (bare "then"),.word (bare "microk8s"),.word (bare "kubectl")]

def snapTokens : List Token :=
  [.word (bare "elif"),.word (bare "["),.word (bare "-x"),.word (bare "/snap/bin/microk8s"),
    .word (bare "]"),.operator .semi,.word (bare "then"),.word (bare "/snap/bin/microk8s"),
    .word (bare "kubectl")]

def elseTokens : List Token :=
  [.word (bare "else"),.word (bare "echo"),.word noticeWord,.operator .greatAnd,.word (bare "2"),
    .operator .semi,.word (bare "exit"),.word (bare "127"),.operator .semi]

def argTokens (args : List String) : List Token :=
  (quotedArgs args).map Token.word ++ [.operator .semi]

/-- The remote command between the arguments. -/
def kubectlText : List Char := "PATH=/snap/bin:/usr/local/bin:/usr/bin:/bin:$PATH; ".toList ++
  ("if command -v kubectl >/dev/null 2>&1; then ".toList ++ "kubectl ".toList)

def microk8sText : List Char :=
  "elif command -v microk8s >/dev/null 2>&1; then ".toList ++ "microk8s kubectl ".toList

def snapText : List Char :=
  "elif [ -x /snap/bin/microk8s ]; then ".toList ++ "/snap/bin/microk8s kubectl ".toList

def elseText : List Char := "else ".toList ++
  ("echo 'kubectl not found: tried kubectl, microk8s kubectl, /snap/bin/microk8s kubectl' >&2; ".toList
    ++ ("exit 127; ".toList ++ "fi".toList))

def argText (args : List String) : List Char :=
  (String.intercalate " " (args.map shlexQuote)).toList ++ "; ".toList

theorem remote_text (args : List String) : (remoteKubectlCommand args).toList =
    kubectlText ++ (argText args ++ (microk8sText ++ (argText args ++ (snapText ++
      (argText args ++ elseText))))) := by
  unfold remoteKubectlCommand kubectlText microk8sText snapText elseText argText
  dsimp only
  simp only [String.toList_append,List.append_assoc,-String.reduceAppend]

theorem feed_argText (args : List String) :
    feed .blank (argText args) = some (.blank,argTokens args) := by
  have hchars : String.toList ∘ shlexQuote = quote ∘ String.toList := by
    funext s
    simp [shlexQuote]
  have hquoted := feed_quotes (args.map String.toList)
  rw [List.map_map,List.map_map,← hchars] at hquoted
  have htext : argText args =
      [' '].intercalate (args.map (String.toList ∘ shlexQuote)) ++ [';'] ++ [' '] := by
    rw [argText,String.toList_intercalate,List.map_map,List.append_assoc]
    rfl
  rw [htext,argTokens,quotedArgs,List.map_map]
  exact feed_append hquoted (by rfl)

def remoteTokens (args : List String) : List Token :=
  kubectlTokens ++ (argTokens args ++ (microk8sTokens ++ (argTokens args ++ (snapTokens ++
    (argTokens args ++ (elseTokens ++ [.word (bare "fi")]))))))

theorem lex_remote (args : List String) :
    lex (remoteKubectlCommand args).toList = some (remoteTokens args) := by
  have hargs := feed_argText args
  have hkubectl : feed .blank kubectlText = some (.blank,kubectlTokens) := by decide +kernel
  have hmicrok8s : feed .blank microk8sText = some (.blank,microk8sTokens) := by decide +kernel
  have hsnap : feed .blank snapText = some (.blank,snapTokens) := by decide +kernel
  have helse : feed .blank elseText = some (.word (bare "fi"),elseTokens) := by decide +kernel
  have hall := feed_append hkubectl (feed_append hargs (feed_append hmicrok8s (feed_append hargs
    (feed_append hsnap (feed_append hargs helse)))))
  rw [lex,remote_text,hall,Option.bind_some,finish,Option.map_some,remoteTokens]
  simp only [List.append_assoc]

/-- The words with which the commands begin. -/
def commandNames : List String :=
  ["PATH=/snap/bin:/usr/local/bin:/usr/bin:/bin:$PATH","command","kubectl","microk8s","[",
    "/snap/bin/microk8s","echo","exit"]

theorem reserved_names : ∀ name ∈ commandNames, reserved (bare name) = none := by
  decide +kernel

theorem reserved_then : reserved (bare "then") = some .thenWord := by decide +kernel

theorem reserved_fi : reserved (bare "fi") = some .fiWord := by decide +kernel

theorem closes_words : ∀ e ∈ ["then","elif","else","fi"], Closes (bare e) := by decide +kernel

/-- A command with the arguments of the tool, up to the word after them. -/
theorem parse_args (n : ℕ) (name : String) (names args : List String) (e : String)
    (rest : List Token) (hname : name ∈ commandNames)
    (hnames : ∀ rest, parseSimple ((name::names).map (Token.word ∘ bare) ++ rest) .any {} =
      parseSimple rest .any ⟨[],(name::names).map bare,[]⟩)
    (he : e ∈ ["then","elif","else","fi"]) :
    parseList (n+2) ((name::names).map (Token.word ∘ bare) ++
      (argTokens args ++ .word (bare e)::rest)) =
        some (kubectlCall (name::names) args,.word (bare e)::rest) := by
  have hwords : (⟨[],(name::names).map bare,[]⟩ : Simple).words ≠ [] := List.cons_ne_nil _ _
  have hargs := parseSimple_words (.word (bare e)::rest) hwords (quotedArgs args)
  refine parseList_simple (reserved_names name hname) ?_ (parseList_closes (closes_words e he))
  rw [argTokens,List.append_assoc]
  exact (hnames _).trans hargs

/-- A command that looks for a program, up to the word after it. -/
theorem parse_probe (n : ℕ) (name : String) (rest : List Token) :
    parseList (n+2) (.word (bare "command")::.word (bare "-v")::.word (bare name)::
      (silentTokens ++ .operator .semi::.word (bare "then")::rest)) =
        some (probe name,.word (bare "then")::rest) :=
  parseList_simple (reserved_names "command" (by decide)) (by rfl)
    (parseList_closes (closes_words "then" (by decide)))

theorem parse_snapTest (n : ℕ) (rest : List Token) :
    parseList (n+2) (.word (bare "[")::.word (bare "-x")::.word (bare "/snap/bin/microk8s")::
      .word (bare "]")::.operator .semi::.word (bare "then")::rest) =
        some (snapTest,.word (bare "then")::rest) :=
  parseList_simple (reserved_names "[" (by decide)) (by rfl)
    (parseList_closes (closes_words "then" (by decide)))

theorem parse_else (n : ℕ) :
    parseOther (n+4) (elseTokens ++ [.word (bare "fi")]) = some (notice,[]) := by
  have hexit : parseList (n+2) [.word (bare "exit"),.word (bare "127"),.operator .semi,
      .word (bare "fi")] =
        some (.simple ⟨[],[bare "exit",bare "127"],[]⟩ .done,[.word (bare "fi")]) :=
    parseList_simple (reserved_names "exit" (by decide)) (by rfl)
      (parseList_closes (closes_words "fi" (by decide)))
  have hecho : parseList (n+3) [.word (bare "echo"),.word noticeWord,.operator .greatAnd,
      .word (bare "2"),.operator .semi,.word (bare "exit"),.word (bare "127"),.operator .semi,
      .word (bare "fi")] = some (notice,[.word (bare "fi")]) :=
    parseList_simple (reserved_names "echo" (by decide)) (by rfl) hexit
  exact parseOther_else (by decide +kernel) hecho reserved_fi nofun

theorem parse_snap (n : ℕ) (args : List String) :
    parseOther (n+6) (snapTokens ++ (argTokens args ++ (elseTokens ++ [.word (bare "fi")]))) =
      some (.branch snapTest (kubectlCall ["/snap/bin/microk8s","kubectl"] args) notice .done,[]) := by
  have hbody := parse_args (n+2) "/snap/bin/microk8s" ["kubectl"] args "else"
    (elseTokens.tail ++ [.word (bare "fi")]) (by decide) (fun _ => by rfl) (by decide)
  exact parseOther_elif (by decide +kernel) (parseBranch_of (parse_snapTest (n+2) _) reserved_then
    hbody (parse_else n) nofun nofun)

theorem parse_microk8s (n : ℕ) (args : List String) :
    parseOther (n+8) (microk8sTokens ++ (argTokens args ++ (snapTokens ++ (argTokens args ++
      (elseTokens ++ [.word (bare "fi")]))))) =
        some (.branch (probe "microk8s") (kubectlCall ["microk8s","kubectl"] args)
          (.branch snapTest (kubectlCall ["/snap/bin/microk8s","kubectl"] args) notice .done)
          .done,[]) := by
  have hbody := parse_args (n+4) "microk8s" ["kubectl"] args "elif"
    (snapTokens.tail ++ (argTokens args ++ (elseTokens ++ [.word (bare "fi")]))) (by decide)
    (fun _ => by rfl) (by decide)
  exact parseOther_elif (by decide +kernel) (parseBranch_of (parse_probe (n+4) "microk8s" _)
    reserved_then hbody (parse_snap n args) nofun nofun)

theorem parse_remote (args : List String) :
    parse (remoteKubectlCommand args).toList = some (remoteScript args) := by
  have hlist : ∀ n, parseList (n+11) (remoteTokens args) = some (remoteScript args,[]) := by
    intro n
    have hbody := parse_args (n+6) "kubectl" [] args "elif" (microk8sTokens.tail ++
      (argTokens args ++ (snapTokens ++ (argTokens args ++ (elseTokens ++ [.word (bare "fi")])))))
      (by decide) (fun _ => by rfl) (by decide)
    have hbranch := parseBranch_of (parse_probe (n+6) "kubectl" _) reserved_then hbody
      (parse_microk8s n args) nofun nofun
    exact parseList_simple (reserved_names _ (by decide)) (by rfl)
      (parseList_if (by decide +kernel) hbranch rfl rfl)
  obtain ⟨n,hn⟩ : ∃ n, (remoteTokens args).length = n + 10 := by
    refine ⟨(remoteTokens args).length - 10,(Nat.sub_add_cancel ?_).symm⟩
    rw [remoteTokens,List.length_append]
    exact le_trans (show 10 ≤ kubectlTokens.length by decide) (Nat.le_add_right _ _)
  unfold parse
  simp only [lex_remote,Option.bind_eq_bind,Option.bind_some,hn,hlist n]

end Script

section Running

variable (world : World) (args : List String)

theorem fields_bare {s : String} (h : expands (bare s) = false) : world.fields (bare s) = [s] := by
  have htext : Word.text (bare s) = s := by
    simp [Word.text,bare,Function.comp_def]
  rw [World.fields,h,htext]
  rfl

theorem argv_bare (names : List String) (h : ∀ s ∈ names, expands (bare s) = false) :
    world.argv (names.map bare) = names := by
  induction names with
  | nil => rfl
  | cons s names ih =>
    rw [List.map_cons,World.argv,List.flatMap_cons,fields_bare world (h s List.mem_cons_self)]
    exact congrArg (s::·) (ih fun s hs => h s (List.mem_cons_of_mem _ hs))

def probed (name : String) : Event := .call ["command","-v",name] silent

def snapTested : Event := .call ["[","-x","/snap/bin/microk8s","]"] []

theorem exec_probe (name : String) (h : expands (bare name) = false) (before : ℕ)
    (events : List Event) : world.exec (probe name) before events =
      some (events ++ [probed name],.ended (world.status events ["command","-v",name])) := by
  refine (exec_simple (argv_bare world ["command","-v",name] ?_) (by decide) (by decide)
    rfl before events).trans rfl
  intro s hs
  simp only [List.mem_cons,List.not_mem_nil,or_false] at hs
  rcases hs with rfl | rfl | rfl
  · rfl
  · rfl
  · exact h

theorem exec_snapTest (before : ℕ) (events : List Event) : world.exec snapTest before events =
    some (events ++ [snapTested],
      .ended (world.status events ["[","-x","/snap/bin/microk8s","]"])) :=
  (exec_simple (argv_bare world ["[","-x","/snap/bin/microk8s","]"] (by decide +kernel))
    (by decide) (by decide) rfl before events).trans rfl

theorem exec_kubectlCall (name : String) (names : List String)
    (h : ∀ s ∈ name::names, expands (bare s) = false) (hname : name ∉ World.unreadCommands)
    (hexit : name ≠ "exit") (before : ℕ) (events : List Event) :
    world.exec (kubectlCall (name::names) args) before events =
      some (events ++ [.call (name::names ++ args) []],
        .ended (world.status events (name::names ++ args))) := by
  have hargv : world.argv ((name::names).map bare ++ quotedArgs args) = name::(names ++ args) := by
    rw [argv_append,argv_bare world _ h,quotedArgs,argv_quotedWords]
    rfl
  exact (exec_simple hargv hname hexit rfl before events).trans rfl

/-- Without any `kubectl` the shell says so and exits. -/
theorem exec_notice (before : ℕ) (events : List Event) : ∃ final status,
    world.exec notice before events = some (final,.exited status) ∧
      received final = received events := by
  have hecho : world.argv [bare "echo",noticeWord] = ["echo",noticeText] := by
    have hname : world.fields (bare "echo") = ["echo"] := fields_bare world (by rfl)
    rw [World.argv,List.flatMap_cons,hname,List.flatMap_singleton]
    exact congrArg ("echo"::·) (fields_quotedWord world noticeText)
  have hexit : world.argv [bare "exit",bare "127"] = ["exit","127"] :=
    argv_bare world ["exit","127"] (by decide +kernel)
  refine ⟨_,_,(exec_simple hecho (by decide) (by decide) rfl before events).trans
    (exec_exit hexit rfl _ _),?_⟩
  simp [received,kubectlArgv]

def pathSet : List Event := [.assign "PATH" (world.value pathWord)]

/-- One of the three ways to `kubectl` is there. -/
def HasKubectl : Prop :=
  world.status (pathSet world) ["command","-v","kubectl"] = 0 ∨
  world.status (pathSet world ++ [probed "kubectl"]) ["command","-v","microk8s"] = 0 ∨
  world.status (pathSet world ++ [probed "kubectl"] ++ [probed "microk8s"])
    ["[","-x","/snap/bin/microk8s","]"] = 0

instance : Decidable (HasKubectl world) := inferInstanceAs (Decidable (_ ∨ _ ∨ _))

theorem exec_remoteScript : world.exec (remoteScript args) 0 [] = world.exec
    (.branch (probe "kubectl") (kubectlCall ["kubectl"] args)
      (.branch (probe "microk8s") (kubectlCall ["microk8s","kubectl"] args)
        (.branch snapTest (kubectlCall ["/snap/bin/microk8s","kubectl"] args) notice .done)
        .done)
      .done) 0 (pathSet world) := by
  rw [remoteScript,World.exec]
  rfl

variable {cond body other : Script} {events events₁ : List Event} {status : ℕ}

/-- A branch in which `kubectl` is run if the condition holds, or else in the other part. -/
theorem received_branch {found : Prop} [Decidable found]
    (hcond : world.exec cond 0 events = some (events₁,.ended status))
    (hquiet : received events₁ = received events)
    (hbody : ∃ n final, world.exec body 0 events₁ = some (final,.ended n) ∧
      received final = received events₁ ++ [args])
    (hother : ∃ final outcome, world.exec other 0 events₁ = some (final,outcome) ∧
      received final = received events₁ ++ if found then [args] else []) :
    ∃ final outcome, world.exec (.branch cond body other .done) 0 events = some (final,outcome) ∧
      received final = received events ++ if status = 0 ∨ found then [args] else [] := by
  by_cases hstatus : status = 0
  · obtain ⟨n,final,hrun,hreceived⟩ := hbody
    refine ⟨final,.ended n,exec_branch hcond (by rw [if_pos hstatus]; exact hrun) 0,?_⟩
    rw [if_pos (.inl hstatus),hreceived,hquiet]
  · obtain ⟨final,outcome,hrun,hreceived⟩ := hother
    have hfound : (status = 0 ∨ found) ↔ found := or_iff_right hstatus
    refine ⟨final,outcome,?_,by simp only [hreceived,hquiet,hfound]⟩
    cases outcome with
    | ended n => exact exec_branch hcond (by rw [if_neg hstatus]; exact hrun) 0
    | exited n => exact exec_branch_exited hcond hstatus hrun 0

theorem received_call (name : String) (names : List String) (events : List Event)
    (h : ∀ s ∈ name::names, expands (bare s) = false) (hname : name ∉ World.unreadCommands)
    (hexit : name ≠ "exit") (hargv : kubectlArgv (.call (name::names ++ args) []) = some args) :
    ∃ n final, world.exec (kubectlCall (name::names) args) 0 events = some (final,.ended n) ∧
      received final = received events ++ [args] := by
  refine ⟨_,_,exec_kubectlCall world args name names h hname hexit 0 events,?_⟩
  rw [received,List.filterMap_append,List.filterMap_cons,hargv]
  rfl

/-- Whatever the arguments are, `kubectl` is run with them, once, or not at all. -/
theorem received_remote : ∃ events outcome,
    world.run (remoteKubectlCommand args).toList = some (events,outcome) ∧
      received events = if HasKubectl world then [args] else [] := by
  have hquiet : ∀ events event, kubectlArgv event = none →
      received (events ++ [event]) = received events := by
    intro events event h
    simp [received,h]
  have hnotice : ∀ events, ∃ final outcome, world.exec notice 0 events = some (final,outcome) ∧
      received final = received events ++ if False then [args] else [] := by
    intro events
    obtain ⟨final,status,hrun,hreceived⟩ := exec_notice world 0 events
    exact ⟨final,_,hrun,by simp [hreceived]⟩
  have hkubectl := received_call world args "kubectl" [] (pathSet world ++ [probed "kubectl"])
    (by decide +kernel) (by decide) (by decide) (by rfl)
  have hmicrok8s := received_call world args "microk8s" ["kubectl"]
    (pathSet world ++ [probed "kubectl"] ++ [probed "microk8s"])
    (by decide +kernel) (by decide) (by decide) (by rfl)
  have hsnap := received_call world args "/snap/bin/microk8s" ["kubectl"]
    (pathSet world ++ [probed "kubectl"] ++ [probed "microk8s"] ++ [snapTested])
    (by decide +kernel) (by decide) (by decide) (by rfl)
  have hlast := received_branch world args (exec_snapTest world 0 _) (hquiet _ _ (by rfl)) hsnap
    (hnotice _)
  have hsecond := received_branch world args (exec_probe world "microk8s" (by rfl) 0 _)
    (hquiet _ _ (by rfl)) hmicrok8s hlast
  obtain ⟨final,outcome,hrun,hreceived⟩ := received_branch world args
    (exec_probe world "kubectl" (by rfl) 0 (pathSet world)) (hquiet _ _ (by rfl)) hkubectl hsecond
  rw [World.run,parse_remote,Option.bind_some,exec_remoteScript]
  refine ⟨final,outcome,hrun,hreceived.trans ?_⟩
  simp only [or_false]
  rfl

end Running

section Spawning

variable {args : List String}

theorem null_mem_quote (s : List Char) : '\x00' ∈ quote s ↔ '\x00' ∈ s := by
  unfold quote
  split_ifs with hempty hsafe
  · simp [hempty]
  · rfl
  · simp only [List.mem_append,List.mem_cons,List.mem_flatMap,List.not_mem_nil,or_false]
    constructor
    · rintro ((h | ⟨c,hc,hmem⟩) | h)
      · exact absurd h (by decide)
      · split_ifs at hmem with hquote
        · simp at hmem
        · rwa [List.mem_singleton.mp hmem]
      · exact absurd h (by decide)
    · intro h
      exact .inl (.inr ⟨'\x00',h,by simp⟩)

theorem null_mem_joined (texts : List (List Char)) :
    '\x00' ∈ [' '].intercalate texts ↔ ∃ text ∈ texts, '\x00' ∈ text := by
  induction texts with
  | nil => simp
  | cons a texts ih =>
    cases texts with
    | nil => simp
    | cons b texts =>
      rw [List.intercalate_cons_cons,List.mem_append,List.mem_append,ih]
      simp

/-- A null character comes from an argument only. -/
theorem null_mem_remote : '\x00' ∈ (remoteKubectlCommand args).toList ↔
    ∃ s ∈ args, '\x00' ∈ s.toList := by
  have hargs : '\x00' ∈ argText args ↔ ∃ s ∈ args, '\x00' ∈ s.toList := by
    have hsemi : '\x00' ∉ "; ".toList := by decide
    rw [argText,String.toList_intercalate,List.mem_append,or_iff_left hsemi]
    refine (null_mem_joined _).trans ?_
    simp [shlexQuote,null_mem_quote]
  have hkubectl : '\x00' ∉ kubectlText := by decide +kernel
  have hmicrok8s : '\x00' ∉ microk8sText := by decide +kernel
  have hsnap : '\x00' ∉ snapText := by decide +kernel
  have helse : '\x00' ∉ elseText := by decide +kernel
  rw [remote_text]
  simp only [List.mem_append,hkubectl,hmicrok8s,hsnap,helse,hargs,false_or,or_false,or_self]

end Spawning

end VermayAgent
