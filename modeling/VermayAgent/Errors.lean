import VermayAgent.Library.Txn
import VermayAgent.Library.Json

/-! Exceptions and the public facts derived from them.
An exception is its class and text; the classes that carry their own public facts
(`AgentError` and its subclasses) carry them here too. -/
namespace VermayAgent
open Library

/-- `AgentErrorInfo`, with the value of its code. -/
structure AgentErrorInfo where
  code : String
  message : String
  httpStatus : Nat
  publicMessage : String
  retryable : Bool
deriving DecidableEq, Repr

inductive PyException where
  | valueError (message : String)
  | typeError (message : String)
  | keyError (message : String)
  | runtimeError (message : String)
  | integrityError (message : String)
  | agentError (info : AgentErrorInfo)
deriving DecidableEq, Repr

namespace PyException

def taskNotFound (taskId : String) : PyException :=
  .agentError ⟨"task_not_found","unknown task: " ++ taskId,404,"task not found",false⟩

def invalidSessionState (message : String) : PyException :=
  .agentError ⟨"invalid_session_state",message,409,message,false⟩

def messageIngressInProgress (messageId : String) : PyException :=
  .agentError ⟨"message_in_progress","message execution is still in progress: " ++ messageId,409,
    "Message execution is still in progress.",true⟩

def messageIngressStale : PyException :=
  .agentError ⟨"message_ingress_stale",
    "message execution did not finish before the runtime restarted",503,
    "The previous message did not finish. Send a new message to retry.",true⟩

def messageStreamAborted : PyException :=
  .agentError ⟨"message_stream_aborted","direct message stream ended before execution completed",503,
    "The response stream ended before it completed. Send a new message to retry.",true⟩

/-- The codes that `AgentErrorCode` knows. -/
def agentErrorCodes : List String :=
  ["invalid_request","invalid_session_state","session_not_found","task_not_found",
    "artifact_not_found","model_error","model_protocol_error","tool_error","mcp_error",
    "checkpoint_error","permission_error","message_in_progress","message_ingress_stale",
    "message_stream_aborted","task_event_projection_error","resource_conflict","runtime_error"]

def persistedMessageIngress (code message : String) (httpStatus : Option Nat)
    (retryable : Bool) : PyException :=
  .agentError ⟨if code ∈ agentErrorCodes then code else "runtime_error",message,
    match httpStatus with
    | some 0 | none => 500
    | some n => n,
    message,retryable⟩

/-- `str(exc)`. -/
def text : PyException → String
  | valueError m | typeError m | keyError m | runtimeError m | integrityError m => m
  | agentError info => info.message

end PyException

def recursionError : PyException := .runtimeError "maximum recursion depth exceeded"

def safeMessage (value fallback : String) : String :=
  let message := value.trimAscii.toString
  if message = "" then fallback else message

def errorInfoFromException : PyException → AgentErrorInfo
  | .agentError info => {info with message := safeMessage info.message info.code}
  | .valueError m =>
    let message := safeMessage m "invalid request"
    ⟨"invalid_request",message,400,message,false⟩
  | .keyError m =>
    ⟨"session_not_found",safeMessage m "session not found",404,"session not found",false⟩
  | .typeError m => ⟨"runtime_error",safeMessage m "TypeError",500,"Agent execution failed.",false⟩
  | .runtimeError m =>
    ⟨"runtime_error",safeMessage m "RuntimeError",500,"Agent execution failed.",false⟩
  | .integrityError m =>
    ⟨"runtime_error",safeMessage m "IntegrityError",500,"Agent execution failed.",false⟩

/-- A text without white space at its ends. -/
theorem trimAscii_toString {s : String} (hstart : s.toSlice.startsWith Char.isWhitespace = false)
    (hend : s.toSlice.endsWith Char.isWhitespace = false) : s.trimAscii.toString = s := by
  have hs : s.toSlice.trimAsciiStart = s.toSlice := String.Slice.dropWhile_eq_self_iff.mpr hstart
  have he : s.toSlice.trimAsciiEnd = s.toSlice := String.Slice.dropEndWhile_eq_self_iff.mpr hend
  rw [String.trimAscii,String.Slice.trimAscii,hs,he]
  simp

end VermayAgent
