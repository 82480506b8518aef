import HawkView.Lib.JsString

/-!
# What is compared between two snapshots

For each resource type the fields that identify an object, the fields that
represent administrative state, and the arrays whose order does not matter.
-/

namespace ChangeEvidence

inductive Severity
  | low
  | medium
  | high
  deriving DecidableEq

/-- `compoundIdentifierFields` is empty for a type that does not declare it. -/
structure SnapshotDifferenceSpec where
  workload : JsString
  category : JsString
  severity : Severity
  operationName : JsString
  microsoftSource : JsString
  identifierFields : List JsString
  compoundIdentifierFields : List JsString := []
  trackedFields : List JsString

def LICENSES : SnapshotDifferenceSpec where
  workload := js "Microsoft 365 licensing"
  category := js "Licenses"
  severity := .medium
  operationName := js "Microsoft 365 subscription changed"
  microsoftSource := js "Microsoft Graph /subscribedSkus"
  identifierFields := [js "skuId", js "skuPartNumber"]
  trackedFields := [js "skuPartNumber", js "prepaidUnits", js "capabilityStatus"]

def ORGANIZATION_CONFIGURATION : SnapshotDifferenceSpec where
  workload := js "Microsoft 365 organization"
  category := js "Organization"
  severity := .medium
  operationName := js "Microsoft 365 organization identity changed"
  microsoftSource := js "Microsoft Graph /organization"
  identifierFields := [js "id"]
  trackedFields := [js "displayName", js "tenantId"]

def DOMAINS : SnapshotDifferenceSpec where
  workload := js "Microsoft 365 domains"
  category := js "Domains"
  severity := .medium
  operationName := js "Microsoft 365 domain configuration changed"
  microsoftSource := js "Microsoft Graph /organization verifiedDomains"
  identifierFields := [js "name"]
  trackedFields := [js "name", js "isDefault", js "isInitial"]

def GROUPS : SnapshotDifferenceSpec where
  workload := js "Microsoft Entra ID"
  category := js "Groups"
  severity := .medium
  operationName := js "Microsoft Entra group configuration changed"
  microsoftSource := js "Microsoft Graph /groups"
  identifierFields := [js "id"]
  trackedFields := [js "displayName", js "mailEnabled", js "securityEnabled", js "groupTypes",
      js "visibility", js "onPremisesSyncEnabled"]

def AUTH_METHOD_POLICIES : SnapshotDifferenceSpec where
  workload := js "Microsoft Entra ID"
  category := js "MFA"
  severity := .high
  operationName := js "Authentication method policy changed"
  microsoftSource := js "Microsoft Graph /policies/authenticationMethodsPolicy"
  identifierFields := [js "id"]
  trackedFields := [js "state", js "includeTargets", js "excludeTargets",
      js "policyMigrationState"]

def CONDITIONAL_ACCESS : SnapshotDifferenceSpec where
  workload := js "Microsoft Entra ID"
  category := js "Conditional Access"
  severity := .high
  operationName := js "Conditional Access policy changed"
  microsoftSource := js "Microsoft Graph /identity/conditionalAccess/policies"
  identifierFields := [js "id"]
  trackedFields := [js "displayName", js "state", js "conditions", js "grantControls",
      js "sessionControls"]

def NAMED_LOCATIONS : SnapshotDifferenceSpec where
  workload := js "Microsoft Entra ID"
  category := js "Conditional Access"
  severity := .high
  operationName := js "Conditional Access named location changed"
  microsoftSource := js "Microsoft Graph /identity/conditionalAccess/namedLocations"
  identifierFields := [js "id"]
  trackedFields := [js "displayName", js "isTrusted", js "countriesAndRegions", js "ipRanges"]

def DIRECTORY_ROLES : SnapshotDifferenceSpec where
  workload := js "Microsoft Entra ID"
  category := js "Roles"
  severity := .high
  operationName := js "Directory role assignment changed"
  microsoftSource := js "Microsoft Graph /roleManagement/directory/roleAssignments"
  identifierFields := [js "id"]
  trackedFields := [js "principalId", js "roleDefinitionId", js "directoryScopeId",
      js "appScopeId"]

def SERVICE_PRINCIPALS : SnapshotDifferenceSpec where
  workload := js "Microsoft Entra ID"
  category := js "Apps"
  severity := .high
  operationName := js "Service principal configuration changed"
  microsoftSource := js "Microsoft Graph /servicePrincipals"
  identifierFields := [js "id", js "appId"]
  trackedFields := [js "displayName", js "accountEnabled", js "appRoleAssignmentRequired",
      js "servicePrincipalType", js "tags"]

def APPLICATIONS : SnapshotDifferenceSpec where
  workload := js "Microsoft Entra ID"
  category := js "Apps"
  severity := .high
  operationName := js "Application registration changed"
  microsoftSource := js "Microsoft Graph /applications"
  identifierFields := [js "id", js "appId"]
  trackedFields := [js "displayName", js "signInAudience", js "requiredResourceAccess",
      js "appRoles", js "passwordCredentials", js "keyCredentials"]

def SECURITY_DEFAULTS : SnapshotDifferenceSpec where
  workload := js "Microsoft Entra ID"
  category := js "Conditional Access"
  severity := .high
  operationName := js "Security Defaults changed"
  microsoftSource := js "Microsoft Graph /policies/identitySecurityDefaultsEnforcementPolicy"
  identifierFields := [js "id"]
  trackedFields := [js "isEnabled"]

def SHAREPOINT_SITES : SnapshotDifferenceSpec where
  workload := js "SharePoint and OneDrive"
  category := js "SharePoint"
  severity := .medium
  operationName := js "SharePoint site configuration changed"
  microsoftSource := js "Microsoft Graph /sites"
  identifierFields := [js "id", js "webUrl"]
  trackedFields := [js "displayName", js "webUrl", js "createdDateTime", js "siteCollection"]

def SHAREPOINT_SETTINGS : SnapshotDifferenceSpec where
  workload := js "SharePoint and OneDrive"
  category := js "SharePoint"
  severity := .high
  operationName := js "SharePoint tenant sharing setting changed"
  microsoftSource := js "Microsoft Graph /admin/sharepoint/settings"
  identifierFields := [js "id"]
  trackedFields := [js "isLegacyAuthProtocolsEnabled",
      js "isUnmanagedSyncAppForTenantRestricted", js "sharingCapability",
      js "oneDriveForBusinessRestrictions"]

def EXCHANGE_ACCEPTED_DOMAINS : SnapshotDifferenceSpec where
  workload := js "Exchange Online"
  category := js "Exchange"
  severity := .medium
  operationName := js "Exchange accepted domain changed"
  microsoftSource := js "Microsoft Graph /organization verifiedDomains"
  identifierFields := [js "id", js "domain"]
  trackedFields := [js "id", js "isDefault", js "isInitial"]

def EXCHANGE_MAILBOX_RULES : SnapshotDifferenceSpec where
  workload := js "Exchange Online"
  category := js "Exchange"
  severity := .high
  operationName := js "Exchange inbox rule changed"
  microsoftSource := js "Microsoft Graph /users/\x7bid\x7d/mailFolders/inbox/messageRules"
  identifierFields := [js "id"]
  compoundIdentifierFields := [js "mailboxUserId", js "id"]
  trackedFields := [js "displayName", js "sequence", js "isEnabled", js "conditions",
      js "actions", js "exceptions"]

def SNAPSHOT_DIFFERENCE_SPECS : List (JsString × SnapshotDifferenceSpec) :=
  [(js "LICENSES", LICENSES),
    (js "ORGANIZATION_CONFIGURATION", ORGANIZATION_CONFIGURATION),
    (js "DOMAINS", DOMAINS),
    (js "GROUPS", GROUPS),
    (js "AUTH_METHOD_POLICIES", AUTH_METHOD_POLICIES),
    (js "CONDITIONAL_ACCESS", CONDITIONAL_ACCESS),
    (js "NAMED_LOCATIONS", NAMED_LOCATIONS),
    (js "DIRECTORY_ROLES", DIRECTORY_ROLES),
    (js "SERVICE_PRINCIPALS", SERVICE_PRINCIPALS),
    (js "APPLICATIONS", APPLICATIONS),
    (js "SECURITY_DEFAULTS", SECURITY_DEFAULTS),
    (js "SHAREPOINT_SITES", SHAREPOINT_SITES),
    (js "SHAREPOINT_SETTINGS", SHAREPOINT_SETTINGS),
    (js "EXCHANGE_ACCEPTED_DOMAINS", EXCHANGE_ACCEPTED_DOMAINS),
    (js "EXCHANGE_MAILBOX_RULES", EXCHANGE_MAILBOX_RULES)]

/-- `UNORDERED_ARRAY_FIELDS`. -/
def UNORDERED_ARRAY_FIELDS : List (JsString × List JsString) :=
  [(js "GROUPS", [js "groupTypes"]),
    (js "CONDITIONAL_ACCESS", [js "includeUsers", js "excludeUsers", js "includeGroups",
      js "excludeGroups", js "includeRoles", js "excludeRoles", js "includeApplications",
      js "excludeApplications", js "includeLocations", js "excludeLocations",
      js "includePlatforms", js "excludePlatforms", js "includeRiskLevels",
      js "excludeRiskLevels", js "includeClientAppTypes", js "builtInControls",
      js "termsOfUse", js "authenticationStrength"]),
    (js "NAMED_LOCATIONS", [js "countriesAndRegions", js "ipRanges"]),
    (js "SERVICE_PRINCIPALS", [js "tags", js "appRoles"]),
    (js "APPLICATIONS", [js "appRoles", js "requiredResourceAccess", js "resourceAccess",
      js "passwordCredentials", js "keyCredentials"]),
    (js "SHAREPOINT_SETTINGS", [js "allowedDomainGuids", js "allowedDomainList",
      js "excludedFileExtensions"])]

/-- `UNORDERED_ARRAY_FIELDS[resourceType]?.has(fieldName)`. -/
def unorderedIn (resourceType fieldName : JsString) : Bool :=
  ((UNORDERED_ARRAY_FIELDS.lookup resourceType).getD []).contains fieldName

/-- The name of a resource type leaves room for an identifier, and has no separator. -/
def Legible (resourceType : JsString) : Prop := resourceType.length ≤ 174 ∧ 0x3A ∉ resourceType

instance : DecidablePred Legible := fun _ => inferInstanceAs (Decidable (_ ∧ _))

/-- The tracked fields are distinct, and one of them takes no part in the identity. -/
def SnapshotDifferenceSpec.Observant (spec : SnapshotDifferenceSpec) : Prop :=
  spec.trackedFields.Nodup ∧ ∃ f ∈ spec.trackedFields,
    f ∉ spec.identifierFields ∧ f ∉ spec.compoundIdentifierFields ∧ f ≠ js "name"

instance : DecidablePred SnapshotDifferenceSpec.Observant := fun _ =>
  inferInstanceAs (Decidable (_ ∧ _))

theorem specs_sound : ∀ e ∈ SNAPSHOT_DIFFERENCE_SPECS, Legible e.1 ∧ e.2.Observant := by
  decide +kernel

end ChangeEvidence
