import CfdiVault.Domain

/-!
# SAT contract objects and outcome policy

The normalized answers of the SAT operations and the action selected from a SAT
code and a SAT state.  `classifySatOutcome` gives a recognized state priority
over the code, so a known state decides the action whatever the code says.

The answers keep the fields that the scheduler, the recovery service or the
command line reads; the raw response is not one of them.
-/

namespace CfdiVault

/-- SAT operation stages that return different meanings for the same code. -/
inductive SatOperation where
  | authenticate
  | request
  | verify
  | download
  | status
  deriving DecidableEq

/-- Internal action selected from SAT code and state signals. -/
inductive SatOutcomeAction where
  | accepted
  | inProgress
  | finished
  | retry
  | permanentFailure
  | expired
  | unauthorized
  | duplicate
  | downloadsExhausted
  deriving DecidableEq

namespace SatOutcomeAction

def value : SatOutcomeAction → String
  | accepted => "accepted"
  | inProgress => "in_progress"
  | finished => "finished"
  | retry => "retry"
  | permanentFailure => "permanent_failure"
  | expired => "expired"
  | unauthorized => "unauthorized"
  | duplicate => "duplicate"
  | downloadsExhausted => "downloads_exhausted"

end SatOutcomeAction

/-- Normalized action plus operator-facing reason for one SAT outcome. -/
structure SatOutcomeClassification where
  action : SatOutcomeAction
  reason : String
  retryable : Bool := false
  deriving DecidableEq

/-- Normalized result of submitting a SAT download request. -/
structure SatRequestResult where
  requestId : String
  satCode : String
  message : String
  action : SatOutcomeAction
  deriving DecidableEq

/-- Normalized result of verifying a SAT request. -/
structure SatVerificationResult where
  requestId : String
  state : SatRequestState
  satCode : String
  message : String
  packageIds : List String := []
  action : SatOutcomeAction := .inProgress
  deriving DecidableEq

/-- Normalized result of downloading one SAT package. -/
structure SatDownloadResult where
  packageId : String
  satCode : String
  message : String
  action : SatOutcomeAction
  content : Option Bytes := none
  deriving DecidableEq

/-- The action of a recognized SAT state. -/
def classifyState : SatRequestState → SatOutcomeClassification
  | .accepted => ⟨.accepted, "SAT request is accepted", false⟩
  | .inProcess => ⟨.inProgress, "SAT request is still being processed", true⟩
  | .finished => ⟨.finished, "SAT request finished and package ids can be downloaded", false⟩
  | .expired => ⟨.expired, "SAT request expired", false⟩
  | .error | .rejected => ⟨.permanentFailure, "SAT request ended in a terminal state", false⟩

/-- The action of a stripped SAT code. -/
def classifyCode (operation : SatOperation) (code : String) : SatOutcomeClassification :=
  if code ∈ ["300", "303", "304", "305", "5001"] then
    ⟨.unauthorized, "requester is not authorized for this SAT operation", false⟩
  else if code ∈ ["301", "302", "5003", "5004"] then
    ⟨.permanentFailure, "SAT returned a terminal validation or empty-result condition", false⟩
  else if code ∈ ["5002", "5005"] then
    ⟨.duplicate, "SAT reports a duplicate or still-active equivalent request", false⟩
  else if code = "5007" then
    ⟨.expired, "SAT package or request window is expired", false⟩
  else if code ∈ ["5008", "5011"] then
    ⟨.downloadsExhausted, "SAT download or daily limit is exhausted", false⟩
  else if code = "404" then
    ⟨.retry, "SAT returned a transient or uncontrolled error", true⟩
  else if code = "5000" then
    if operation = .download then ⟨.finished, "SAT package download succeeded", false⟩
    else ⟨.accepted, "SAT accepted the operation", false⟩
  else ⟨.retry, "unknown SAT code; retry once before escalation", true⟩

/-- Map a SAT code and state signal to the next internal action. -/
def classifySatOutcome (operation : SatOperation) (satCode : Option String)
    (state : Option SatRequestState) : SatOutcomeClassification :=
  match state with
  | some s => classifyState s
  | none => classifyCode operation (Text.strip (satCode.getD ""))

end CfdiVault
