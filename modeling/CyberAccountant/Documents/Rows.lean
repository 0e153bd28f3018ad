import CyberAccountant.Ledger.JournalService

/-! The tables of documents: a document, the versions of its file, and its links to the entries that it
backs. -/

namespace CyberAccountant.Documents

open CyberAccountant.Library CyberAccountant.Ledger

inductive DocumentSource where
  | generated
  | uploaded
  | email
  deriving DecidableEq

inductive DocumentStatus where
  | inbox
  | recognized
  | linked
  | archived
  | draft
  | final
  | sent
  deriving DecidableEq

/-- `voided_at`, `voided_by_user_id` and `void_reason`. -/
structure Voiding where
  voidedAt : Timestamp
  byUserId : Uuid
  reason : String
  deriving DecidableEq

/-- What the operations read and write of a row of `documents`. -/
structure DocumentRow where
  orgId : Uuid
  source : DocumentSource
  status : DocumentStatus
  templateSlug : Option String
  currentVersionId : Option Uuid
  voided : Option Voiding
  deriving DecidableEq

/-- A row of `document_versions`; `J` is the type of its JSON. -/
structure VersionRow (J : Type) where
  id : Uuid
  orgId : Uuid
  documentId : Uuid
  versionNo : Nat
  s3Key : Option String
  checksumSha256 : Option String
  mime : Option String
  sizeBytes : Option Nat
  templateVersion : Option String
  renderEngine : Option String
  inputSnapshot : Option J
  deriving DecidableEq

/-- A row of `document_entries`. -/
structure Link where
  orgId : Uuid
  documentId : Uuid
  entryId : Uuid
  deriving DecidableEq

end CyberAccountant.Documents
