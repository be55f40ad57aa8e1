/-
# Enrollment

`enroll_host`: an agent trades a one-time token for a credential of its host. The host is
registered, its previous credential revoked, and the token consumed in one transaction.
The token of the new credential, random in the source, is here the text of a fresh
identifier.
-/

import PortForge.Central.Heartbeats

namespace Central

open Transaction

/-- `EnrollmentRequest`. -/
structure EnrollmentIn where
  enrollmentToken : String
  hostId : Uuid
  report : HostReport

/-- `EnrollmentResult`. -/
structure EnrollmentResult where
  hostId : Uuid
  agentToken : String

/-- `generate_token`. -/
def generateToken : Service String := .draw fun drawn => .ret drawn.uuid.text

/-- `MintedEnrollmentToken`. -/
structure MintedEnrollmentToken where
  rawToken : String
  expiresAt : Option ℤ

/-- `mint_enrollment_token`. -/
def mintEnrollmentToken (env : Environment) (label : Option String) (ttl : Option ℤ) :
    Service MintedEnrollmentToken := do
  let rawToken ← generateToken
  let now ← clock
  let expiresAt := ttl.map fun ttl => now + ttl
  let id ← newUuid
  execute (.insertToken
    { id := id, tokenHash := env.hashToken rawToken, createdAt := now, expiresAt := expiresAt,
      consumedAt := none, consumedByHostId := none, label := label })
  pure { rawToken := rawToken, expiresAt := expiresAt }

/-- The endpoint `mint_enrollment_token`. -/
def mintEnrollmentTokenEndpoint (env : Environment) (label : Option String) (ttlHours : ℤ) :
    Service MintedEnrollmentToken := do
  let minted ← mintEnrollmentToken env label
    (if ttlHours > 0 then some (ttlHours * 3600000000) else none)
  commit
  pure minted

/-- `AgentRepository.replace_credential_for_host`. The loop over the active credential is
that of its revocation. -/
def replaceCredential (hostId : Uuid) (tokenHash : String) (createdAt : ℤ) : Service Unit := do
  revokeActiveCredential hostId createdAt
  let id ← newUuid
  add (.insertCredential
    { id := id, hostId := hostId, tokenHash := tokenHash, createdAt := createdAt,
      revokedAt := none })
  flush

/-- `AgentRepository.consume_enrollment_token`. -/
def consumeToken (token : EnrollmentToken) (hostId : Uuid) (consumedAt : ℤ) : Service Unit := do
  add (.consumeToken token.id hostId consumedAt)
  flush

/-- What an enrollment does once its token and its host have been accepted. -/
def enrollAccepted (env : Environment) (enrollment : EnrollmentIn) (token : EnrollmentToken)
    (now : ℤ) : Service EnrollmentResult := do
  upsertHost enrollment.hostId enrollment.report now
  let agentToken ← generateToken
  replaceCredential enrollment.hostId (env.hashToken agentToken) now
  consumeToken token enrollment.hostId now
  commit
  pure { hostId := enrollment.hostId, agentToken := agentToken }

/-- The checks on the token. -/
def checkToken (token : EnrollmentToken) (now : ℤ) : Service Unit :=
  if token.consumedAt ≠ none then raise (.enrollment "Enrollment token has already been used.")
  else if token.expiresAt.any fun expiresAt => expiresAt < now then
    raise (.enrollment "Enrollment token has expired.")
  else pure ()

theorem checkToken_cases (token : EnrollmentToken) (now : ℤ) :
    checkToken token now = .ret () ∨ ∃ error, checkToken token now = raise error := by
  rw [checkToken]
  split_ifs
  · exact .inr ⟨_, rfl⟩
  · exact .inr ⟨_, rfl⟩
  · exact .inl rfl

/-- What an enrollment does with the token it has found. -/
def enrollWith (env : Environment) (enrollment : EnrollmentIn) (token : EnrollmentToken) :
    Service EnrollmentResult := do
  let now ← clock
  checkToken token now
  let existing ← select fun db => db.getHost enrollment.hostId
  if existing.any fun host => host.lifecycleState = .decommissioned then
    raise (.enrollment "Host identity is decommissioned.")
  else enrollAccepted env enrollment token now

/-- `enroll_host`. -/
def enrollHost (env : Environment) (enrollment : EnrollmentIn) : Service EnrollmentResult := do
  let rows ← select fun db => db.tokensByHash (env.hashToken enrollment.enrollmentToken)
  let found ← scalarOneOrNone rows
  match found with
  | none => raise (.enrollment "Enrollment token is invalid.")
  | some token => enrollWith env enrollment token

end Central
