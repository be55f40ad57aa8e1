/-
# Host health

Central derives a host's health from the time it last heard of it. The stored
`last_seen` is subtracted from the present, cut to whole seconds, and compared
with the two thresholds of the settings.
-/

import PortForge.Central.Service

namespace Central

/-- `HostHealthState`. -/
inductive HostHealthState
  | healthy
  | stale
  | offline
  | degraded
  deriving DecidableEq

def HostHealthState.value : HostHealthState → String
  | healthy => "HEALTHY"
  | stale => "STALE"
  | offline => "OFFLINE"
  | degraded => "DEGRADED"

/-- `HostHealthReason`. -/
inductive HostHealthReason
  | agentHealthy
  | agentSyncStale
  | agentOffline
  | snapshotStale
  | centralDatabaseUnavailable
  deriving DecidableEq

/-- `int((now - last_seen).total_seconds())`: whole seconds, cut towards zero. -/
def ageSeconds (lastSeen now : ℤ) : ℤ := (now - lastSeen).tdiv 1000000

/-- `derive_health_state`: state, reason and age. -/
def deriveHealthState (lastSeen : ℤ) (staleAfter offlineAfter : ℤ) (now : ℤ) :
    HostHealthState × HostHealthReason × ℤ :=
  let age := ageSeconds lastSeen now
  if age > offlineAfter then (.offline, .agentOffline, age)
  else if age > staleAfter then (.stale, .agentSyncStale, age)
  else (.healthy, .agentHealthy, age)

/-- The health of a host at an instant, under the thresholds of the settings. -/
def Environment.health (env : Environment) (lastSeen now : ℤ) :
    HostHealthState × HostHealthReason × ℤ :=
  deriveHealthState lastSeen env.settings.hostStaleAfterSeconds
    env.settings.hostOfflineAfterSeconds now

theorem health_eq_offline_iff {env : Environment} {lastSeen now : ℤ} :
    (env.health lastSeen now).1 = .offline ↔
      env.settings.hostOfflineAfterSeconds < ageSeconds lastSeen now := by
  simp only [Environment.health, deriveHealthState]
  split_ifs with hoffline hstale
  · simpa using hoffline
  · simpa using hoffline
  · simpa using hoffline

theorem health_eq_healthy_iff {env : Environment} {lastSeen now : ℤ} :
    (env.health lastSeen now).1 = .healthy ↔
      ageSeconds lastSeen now ≤ env.settings.hostStaleAfterSeconds := by
  have horder := env.settings.stale_lt_offline
  simp only [Environment.health, deriveHealthState]
  split_ifs with hoffline hstale
  · simp only [false_iff]
    omega
  · simp only [false_iff]
    omega
  · simp only [true_iff]
    omega

/-- The age only grows with the silence. -/
theorem ageSeconds_mono {lastSeen lastSeen' now now' : ℤ} (hseen : lastSeen' ≤ lastSeen)
    (hnow : now ≤ now') : ageSeconds lastSeen now ≤ ageSeconds lastSeen' now' :=
  Int.tdiv_le_tdiv (by decide) (by omega)

end Central
