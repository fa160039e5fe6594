import CfdiVault.SatContract
import CfdiVault.Reconciliation
import CfdiVault.Library.Program

/-!
# Metadata-first SAT orchestration

The ports through which the orchestrators talk to SAT, and `MetadataFirstSatOrchestrator`.

A port answers or raises, and what it does may depend on everything that was asked before:
`Ports` are functions of the events so far, so that every behaviour of the world outside,
however it changes, is one value.  The events of a run are its calls together with what
came back.
-/

namespace CfdiVault

namespace SatOrchestration

/-- One call of a port and its outcome.  The token of an authentication is not kept: nothing
reads it. -/
inductive PortEvent (ε : Type) where
  | authenticated (answer : Except ε Unit)
  | submitted (query : DownloadQuery) (answer : Except ε SatRequestResult)
  | verified (requestId : String) (answer : Except ε SatVerificationResult)
  | downloaded (packageId : String) (answer : Except ε SatDownloadResult)
  deriving DecidableEq

/-- The ports, each a function of the events before the call. -/
structure Ports (ε : Type) where
  authenticate : List (PortEvent ε) → Except ε Unit
  submitRequest : List (PortEvent ε) → DownloadQuery → Except ε SatRequestResult
  verifyRequest : List (PortEvent ε) → String → Except ε SatVerificationResult
  downloadPackage : List (PortEvent ε) → String → Except ε SatDownloadResult

variable {ε : Type} {α : Type}

/-- Call a port and record what came back. -/
def call (ask : List (PortEvent ε) → Except ε α) (event : Except ε α → PortEvent ε) :
    Prog (List (PortEvent ε)) ε α :=
  Prog.act fun events => (ask events, events ++ [event (ask events)])

namespace Ports

variable (ports : Ports ε)

def askAuthenticate : Prog (List (PortEvent ε)) ε Unit :=
  call ports.authenticate .authenticated

def askSubmit (query : DownloadQuery) : Prog (List (PortEvent ε)) ε SatRequestResult :=
  call (ports.submitRequest · query) (.submitted query)

def askVerify (requestId : String) : Prog (List (PortEvent ε)) ε SatVerificationResult :=
  call (ports.verifyRequest · requestId) (.verified requestId)

def askDownload (packageId : String) : Prog (List (PortEvent ε)) ε SatDownloadResult :=
  call (ports.downloadPackage · packageId) (.downloaded packageId)

end Ports

/-- High-level status for one simulated SAT orchestration run. -/
inductive SatOrchestrationStatus where
  | skipped
  | waiting
  | downloaded
  | retry
  | terminal
  deriving DecidableEq

/-- Application-facing result for a metadata-first SAT run. -/
structure SatOrchestrationResult where
  status : SatOrchestrationStatus
  action : Option SatOutcomeAction
  requestId : Option String := none
  downloadedPackages : List SatDownloadResult := []
  skippedReason : Option String := none
  message : String := ""
  deriving DecidableEq

def resultFromAction (action : SatOutcomeAction) (message : String) (requestId : Option String)
    (downloadedPackages : List SatDownloadResult) : SatOrchestrationResult where
  status := if action = .retry then .retry else .terminal
  action := some action
  requestId := requestId
  downloadedPackages := downloadedPackages
  message := message

/-- The download loop, which leaves at the first outcome that is not `FINISHED`. -/
def downloadPackages (ports : Ports ε) (requestId : String) (downloaded : List SatDownloadResult) :
    List String → Prog (List (PortEvent ε)) ε SatOrchestrationResult
  | [] => pure {
      status := .downloaded
      action := some .finished
      requestId := some requestId
      downloadedPackages := downloaded
      message := "Downloaded " ++ toString downloaded.length ++ " synthetic package(s)." }
  | packageId :: rest => do
      let package ← ports.askDownload packageId
      if package.action ≠ .finished then
        pure (resultFromAction package.action package.message (some requestId) (downloaded ++ [package]))
      else downloadPackages ports requestId (downloaded ++ [package]) rest

/-- What follows an accepted submission. -/
def followUp (ports : Ports ε) (request : SatRequestResult) :
    Prog (List (PortEvent ε)) ε SatOrchestrationResult := do
  let verification ← ports.askVerify request.requestId
  if verification.action = .accepted ∨ verification.action = .inProgress then
    pure {
      status := .waiting
      action := some verification.action
      requestId := some request.requestId
      message := verification.message }
  else if verification.action ≠ .finished then
    pure (resultFromAction verification.action verification.message (some request.requestId) [])
  else downloadPackages ports request.requestId [] verification.packageIds

/-- Submit, verify, and download only when metadata says XML is needed. -/
def run (ports : Ports ε) (query : DownloadQuery)
    (decisions : List Reconciliation.ReconciliationDecision) :
    Prog (List (PortEvent ε)) ε SatOrchestrationResult := do
  let pendingDecisions := decisions.filter (·.shouldDownloadXml)
  if pendingDecisions = [] then
    pure {
      status := .skipped
      action := none
      skippedReason := some "metadata-first reconciliation does not require XML download"
      message := "No SAT request was submitted." }
  else do
    ports.askAuthenticate
    let request ← ports.askSubmit query
    if request.action ≠ .accepted then
      pure (resultFromAction request.action request.message (some request.requestId) [])
    else followUp ports request

end SatOrchestration

end CfdiVault
