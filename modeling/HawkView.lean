import HawkView.Alerts.SendTerminal
import HawkView.Alerts.SendBudget
import HawkView.Alerts.EmailBudget
import HawkView.Alerts.Cancellation
import HawkView.Alerts.ChunkedIntake
import HawkView.Alerts.NoReplay
import HawkView.Alerts.PolicyWeakening
import HawkView.Alerts.UnmodelledGap
import HawkView.Alerts.DeliveryQueue
import HawkView.Alerts.EmailIncidentScope
import HawkView.Alerts.QueueAgreement
import HawkView.Alerts.WindowCoverage
import HawkView.Alerts.BlankSubjects
import HawkView.Alerts.AlertLifecycle
import HawkView.Normalization.SubjectBound
import HawkView.Tenants.ScheduledCandidates
import HawkView.Alerts.DeliveryLedger
import HawkView.Alerts.SettlementRace
import HawkView.Alerts.ApplyStatements
import HawkView.Alerts.EpisodeOrdinals
import HawkView.Auth.BeforeSuccess
import HawkView.IdentityRisk.PasswordSpray
import HawkView.IdentityRisk.PreparationAccounted
import HawkView.Auth.ConsoleSessionSafety
import HawkView.Microsoft.LinearHistory
import HawkView.Microsoft.ConsentSafety
import HawkView.Tenants.DiscoveryCursor
import HawkView.Tenants.ContentLedger
import HawkView.Tenants.AuditUsageBudget
import HawkView.Tenants.DirectoryRolesFenced
import HawkView.Tenants.PimPublication
import HawkView.IdentityRisk.AuthenticationQuarantine
import HawkView.IdentityRisk.FingerprintCoverage
import HawkView.Changes.EvidenceIdentity
import HawkView.Changes.Noninterference
import HawkView.RiskyUsers.NativePublicationLaws
import HawkView.RiskyUsers.FleetDegradation
import HawkView.RiskyUsers.FleetAccepts
import HawkView.IdentityRisk.SourceFaithful
import HawkView.Secrets.SecretAgreement
import HawkView.Microsoft.RetriesInTime
import HawkView.RiskyUsers.FeedSound
import HawkView.Tenants.PimLossless
import HawkView.Tenants.PimPageChain
import HawkView.Auth.IncidentQuarantine
import HawkView.Microsoft.RetryAfterExact
import HawkView.Tenants.EffectiveMfaDegraded
import HawkView.RateLimiting.FixedWindowBounded
import HawkView.RateLimiting.ClientAddress
import HawkView.Tenants.PlanOrderFree
import HawkView.RiskyUsers.CredentialFailure
