import CfdiVault.Domain

/-!
# Metadata-first reconciliation

The decision taken for one metadata row from its status, the XML evidence at hand
and the status seen before.  Statuses are compared stripped and lower-cased.
-/

namespace CfdiVault

namespace Reconciliation

def CANCELLED_STATUSES : List String := ["cancelado", "cancelada", "cancelled", "canceled"]

def TRANSIENT_STATUSES : List String := ["en_proceso", "en proceso", "processing", "pending"]

/-- Decision emitted for one metadata row. -/
structure ReconciliationDecision where
  state : ReconciliationState
  reason : String
  shouldDownloadXml : Bool
  shouldCheckStatus : Bool
  deriving DecidableEq

/-- `text.strip().lower()`. -/
def normalized (rt : Runtime) (text : String) : String := rt.lower (Text.strip text)

/-- The status was known before and is another one now. -/
def statusChanged (rt : Runtime) (status : String) (previousStatus : Option String) : Bool :=
  let previous := normalized rt (previousStatus.getD "")
  previous ≠ "" && previous ≠ normalized rt status

/-- Classify metadata against local XML evidence and the previous ledger state. -/
def decideMetadataState (rt : Runtime) (status : String) (hasXml : Bool) (isNew : Bool := false)
    (previousStatus : Option String := none) : ReconciliationDecision :=
  if hasXml then
    ⟨.xmlDownloaded, "xml evidence already exists", false,
      statusChanged rt status previousStatus || normalized rt status ∈ CANCELLED_STATUSES⟩
  else if normalized rt status ∈ CANCELLED_STATUSES then
    ⟨.cancelledMetadata, "metadata reports cancellation", false, true⟩
  else if normalized rt status ∈ TRANSIENT_STATUSES ∨ statusChanged rt status previousStatus then
    ⟨.stateCheckPending, "metadata status needs confirmation", false, true⟩
  else if isNew then
    ⟨.discoveredInMetadata, "new UUID discovered in metadata", true, false⟩
  else ⟨.xmlPending, "metadata exists without XML evidence", true, false⟩

/-- Without evidence no status makes a row one whose XML is stored. -/
theorem decideMetadataState_noXml (rt : Runtime) (status : String) (isNew : Bool)
    (previousStatus : Option String) :
    (decideMetadataState rt status false isNew previousStatus).state.value ≠
      ReconciliationState.xmlDownloaded.value := by
  unfold decideMetadataState
  rw [if_neg Bool.false_ne_true]
  split_ifs <;> exact of_decide_eq_true rfl

/-- XML is fetched only for a row without evidence whose status needs no confirmation. -/
theorem decideMetadataState_download {rt : Runtime} {status : String} {hasXml isNew : Bool}
    {previousStatus : Option String}
    (h : (decideMetadataState rt status hasXml isNew previousStatus).shouldDownloadXml = true) :
    hasXml = false ∧
      (decideMetadataState rt status hasXml isNew previousStatus).shouldCheckStatus = false := by
  unfold decideMetadataState at h ⊢
  split_ifs at h ⊢ with hxml hcancelled hchanged hnew <;> simp_all

end Reconciliation

end CfdiVault
