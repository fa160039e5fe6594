import CfdiVault.SatContract

/-!
# Simulated SAT verification

The verification answers of the deterministic scenario client, which stands in
for SAT wherever the live gate is not opened.
-/

namespace CfdiVault

/-- The scenarios that the simulated verification distinguishes; the others answer
as `verifyFinishedWithPackages`. -/
inductive FakeSatScenario where
  | verifyInProcess
  | verifyFinishedWithPackages
  | internalRetryableError
  deriving DecidableEq

/-- `_verification_result` -/
def verificationResult (requestId : String) (state : SatRequestState) (satCode message : String)
    (packageIds : List String) : SatVerificationResult where
  requestId := requestId
  state := state
  satCode := satCode
  message := message
  packageIds := packageIds
  action := (classifySatOutcome .verify (some satCode) (some state)).action

/-- `FakeSatScenarioClient.verify_request` -/
def FakeSatScenario.verifyRequest (scenario : FakeSatScenario) (packageCount : Nat)
    (requestId : String) : SatVerificationResult :=
  match scenario with
  | .verifyInProcess =>
      verificationResult requestId .inProcess "5000" "Synthetic request in process" []
  | .internalRetryableError =>
      verificationResult requestId .error "404" "Synthetic transient verification error" []
  | .verifyFinishedWithPackages =>
      verificationResult requestId .finished "5000" "Synthetic request finished"
        ((List.range packageCount).map fun i => "SYN-PKG-" ++ Text.padded 3 (i + 1))

end CfdiVault
