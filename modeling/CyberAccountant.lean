import CyberAccountant.Library.Transition
import CyberAccountant.Library.Table
import CyberAccountant.Library.Word64
import CyberAccountant.Ledger.Immutability
import CyberAccountant.Ledger.JournalRuns
import CyberAccountant.Ledger.Backstop
import CyberAccountant.Ledger.DraftTotals
import CyberAccountant.Tax.Storno
import CyberAccountant.Tax.Subaccounts
import CyberAccountant.Payroll.PostingRuns
import CyberAccountant.Tenancy.OrgPermissions
import CyberAccountant.Tenancy.LastOwner
import CyberAccountant.Tenancy.BankAccounts
import CyberAccountant.Admin.Lockout
import CyberAccountant.Agent.ToolRegistry
import CyberAccountant.Jobs.NoLoss
import CyberAccountant.Jobs.Atomic
import CyberAccountant.Library.Program
import CyberAccountant.Jobs.Redis
import CyberAccountant.Jobs.Finality
import CyberAccountant.Jobs.Placement
import CyberAccountant.Security.Idempotency
import CyberAccountant.Library.Turns
import CyberAccountant.Library.Window
import CyberAccountant.Library.Versions
import CyberAccountant.Security.SingleExecution
import CyberAccountant.Payroll.Approval
import CyberAccountant.Payroll.Withholding
import CyberAccountant.Docgen.Templates
import CyberAccountant.Docgen.TemplateRuns
import CyberAccountant.Docgen.Immutability
import CyberAccountant.Docgen.PublishGate
import CyberAccountant.Documents.Deletion
import CyberAccountant.Documents.RenderOnce
import CyberAccountant.Documents.Voiding
import CyberAccountant.Documents.CurrentVersion
import CyberAccountant.Docgen.TemplateRegistry
import CyberAccountant.Documents.TemplateChoice
import CyberAccountant.Api.Validation
import CyberAccountant.Documents.Edits
import CyberAccountant.Documents.UploadOnce
import CyberAccountant.Agent.Orchestrator
import CyberAccountant.Agent.Lifecycle
import CyberAccountant.Agent.Budget
import CyberAccountant.Library.Radix64
import CyberAccountant.Security.Base64
import CyberAccountant.Security.Tokens
import CyberAccountant.Security.OneShot
import CyberAccountant.Security.Sessions
import CyberAccountant.Security.Rotation
import CyberAccountant.Money.AmountInWords
import CyberAccountant.Api.Fields
import CyberAccountant.Tax.Calculations
import CyberAccountant.Tax.Filings
import CyberAccountant.Tax.FilingPeriod
import CyberAccountant.Tax.Declaration
import CyberAccountant.Library.Calendar
import CyberAccountant.Tax.TaxCalendar
import CyberAccountant.Tax.Deadlines
import CyberAccountant.Database.ConnectionPool
import CyberAccountant.Database.Migrations
import CyberAccountant.Security.RateLimit
import CyberAccountant.Messaging.KafkaConsumer
import CyberAccountant.Library.Rounding
import CyberAccountant.Tax.FormAmounts
import CyberAccountant.Library.Utf8
import CyberAccountant.Money.MoneyText
import CyberAccountant.Library.Paths
import CyberAccountant.Files.KeySafety
import CyberAccountant.Tax.Expansion
import CyberAccountant.Money.AmountInWordsKk
import CyberAccountant.Money.Agreement
import CyberAccountant.Ledger.LineNumbers
import CyberAccountant.Tax.ExactFigures
import CyberAccountant.Tax.TrailingYear
import CyberAccountant.Ledger.NumericInput
import CyberAccountant.Api.JournalController
import CyberAccountant.Tax.VatAmounts
import CyberAccountant.Security.Jwt
import CyberAccountant.Security.Auth
import CyberAccountant.Library.Xml
import CyberAccountant.Library.XmlElement
import CyberAccountant.Tax.FnoDocument
import CyberAccountant.Database.Retry
import CyberAccountant.Security.FailOpen
import CyberAccountant.Security.IdempotencyKeys
import CyberAccountant.Security.LockOwnership
import CyberAccountant.Agent.Strictness
import CyberAccountant.Docgen.ServerFields
import CyberAccountant.Library.Fuel
import CyberAccountant.Docgen.Normalize
import CyberAccountant.Docgen.BlockCompiler
import CyberAccountant.Docgen.CompilerErrors
import CyberAccountant.Library.Literals
import CyberAccountant.Docgen.InertText
import CyberAccountant.Docgen.Fixture
import CyberAccountant.Agent.ModelEgress
import CyberAccountant.Security.ClientIp
import CyberAccountant.Messaging.Webhooks
import CyberAccountant.Library.Isolation
import CyberAccountant.Library.UniqueTable
import CyberAccountant.Api.RequestUtils
import CyberAccountant.Hr.Employees
import CyberAccountant.Hr.HrDocuments
import CyberAccountant.Ledger.KzIdentifiers
import CyberAccountant.Hr.Commands
import CyberAccountant.Hr.Parts
import CyberAccountant.Hr.Controllers
import CyberAccountant.Hr.Isolation
import CyberAccountant.Api.Dates
import CyberAccountant.Hr.History
import CyberAccountant.Hr.Answers
import CyberAccountant.Hr.Roster
import CyberAccountant.Docgen.Evaluation
import CyberAccountant.Hr.GeneratedInputs
import CyberAccountant.Accounts.Requests
import CyberAccountant.Tenancy.Escalation
import CyberAccountant.Accounts.Takeover
import CyberAccountant.Payroll.PayslipDocument
