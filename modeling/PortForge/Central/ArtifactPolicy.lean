/-
# The configured artifact

`create_upgrade` compares the requested version with the configured one as text, while the
versions themselves are ordered by `version_compare`. So the configured version in another
spelling is accepted with any artifact, and no other accepted request escapes the policy.
-/

import PortForge.Central.UpgradeLaw
import PortForge.Python.Release

namespace Central

open Transaction Python

/-- `packaging` orders releases number by number, a missing number counting as zero. It reads
the numbers with `int`. -/
def OrdersReleases (env : Environment) : Prop :=
  ∀ a b : Release, env.compareVersions a.text b.text = do
    let as ← a.numbers
    let bs ← b.numbers
    pure (comparePadded as bs)

/-- A target version, its artifact and its hash are configured. -/
structure Settings.Configures (settings : Settings) (version url sha256 : String) : Prop where
  version : given settings.updateTargetVersion = some version
  url : given settings.updateArtifactUrl = some url
  sha256 : given settings.updateArtifactSha256 = some sha256

/-- An upgrade to the configured version carries the configured artifact. -/
def HostUpgrade.OnPolicy (env : Environment) (upgrade : HostUpgrade) : Prop :=
  ∀ version url sha256, env.settings.Configures version url sha256 →
    versionCompare env upgrade.targetVersion version = 0 →
      upgrade.artifactUrl = url ∧ upgrade.artifactSha256 = sha256

/-- The request spells the configured version in another way and brings another artifact. -/
def UpgradeIn.Respelled (env : Environment) (request : UpgradeIn) : Prop :=
  ∃ version url sha256, env.settings.Configures version url sha256 ∧
    request.targetVersion ≠ version ∧ versionCompare env request.targetVersion version = 0 ∧
      (request.artifactUrl ≠ url ∨ request.artifactSha256 ≠ sha256)

/-- The upgrade an idempotent request has opened before. -/
def Db.requestedBefore (db : Db) (hostId : Uuid) (requestId : Option String) :
    Option HostUpgrade :=
  match given requestId with
  | none => none
  | some requestId => db.getUpgradeByRequestId hostId requestId

/-- The upgrade is to the version of the request, with its artifact. -/
structure UpgradeIn.Names (request : UpgradeIn) (upgrade : HostUpgrade) : Prop where
  targetVersion : upgrade.targetVersion = request.targetVersion
  artifactUrl : upgrade.artifactUrl = request.artifactUrl
  artifactSha256 : upgrade.artifactSha256 = request.artifactSha256

section Accepts

variable {guar : ServiceSession → Prop} {s : ServiceSession} {db : Db}

/-- The check lets a request pass whose text is not the configured version, or that brings the
configured artifact. -/
theorem ensures_checkArtifact {rely : ServiceSession → Db → Prop} (settings : Settings)
    (request : UpgradeIn) :
    (checkArtifact settings request).Ensures store rely guar s fun s' result =>
      s' = s ∧ (result = .ok () → ∀ version url sha256, settings.Configures version url sha256 →
        request.targetVersion = version →
          request.artifactUrl = url ∧ request.artifactSha256 = sha256) := by
  rw [checkArtifact]
  split
  · next version url sha256 hversion hurl hsha256 =>
      split
      · exact ⟨rfl, fun h => by cases h⟩
      · next hpasses =>
          refine ⟨rfl, fun _ version' url' sha256' hconfigured htext => ?_⟩
          have hversion' := Option.some.inj (hversion.symm.trans hconfigured.version)
          have hurl' := Option.some.inj (hurl.symm.trans hconfigured.url)
          have hsha' := Option.some.inj (hsha256.symm.trans hconfigured.sha256)
          subst hversion' hurl' hsha'
          by_contra hother
          exact hpasses ⟨htext, by tauto⟩
  · next hnone =>
      refine ⟨rfl, fun _ version url sha256 hconfigured _ => ?_⟩
      exact (hnone version url sha256 hconfigured.version hconfigured.url
        hconfigured.sha256).elim

theorem ensures_findRequested (hs : Blank s) (hostId : Uuid) (requestId : Option String) :
    (findRequested hostId requestId).Ensures store (Program.alone store db) guar s
      fun s' result => s' = s ∧ result = .ok (db.requestedBefore hostId requestId) := by
  rw [findRequested, Db.requestedBefore]
  cases given requestId with
  | none => exact ⟨rfl, rfl⟩
  | some requestId =>
      rw [ensures_select]
      intro seen hseen
      rw [hs.view_eq hseen]
      exact ⟨rfl, rfl⟩

theorem ensures_openUnlessPending {rely : ServiceSession → Db → Prop} (env : Environment)
    (host : Host) (request : UpgradeIn) :
    (openUnlessPending env host request).Ensures store rely guar s fun _ result =>
      ∀ upgrade, result = .ok upgrade → request.Names upgrade := by
  simp only [openUnlessPending, openUpgrade, Program.bind_eq, Program.ensures_bind, ensures_select]
  intro seen _
  cases (s.view store seen).getNonTerminalForHost host.id with
  | some pending => exact fun upgrade hanswer => by cases hanswer
  | none =>
      simp only [Program.ensures_bind, ensures_clock, ensures_newUuid, ensures_serverNow,
        ensures_add, ensures_flush]
      refine ⟨fun _ _ _ => ?_, fun _ _ _ _ upgrade hanswer => by cases hanswer⟩
      rintro upgrade ⟨⟩
      exact ⟨rfl, rfl, rfl⟩

/-- What a request that runs alone is answered: the upgrade it has opened before, or an upgrade
that it names and that passed the check of its artifact. -/
theorem ensures_createUpgrade (env : Environment) (hostId : Uuid) (request : UpgradeIn)
    (hs : Blank s) :
    (createUpgrade env hostId request).Ensures store (Program.alone store db) guar s
      fun _ result => ∀ upgrade, result = .ok upgrade →
        db.requestedBefore hostId request.requestId = some upgrade ∨
          db.requestedBefore hostId request.requestId = none ∧ request.Names upgrade ∧
            ∀ version url sha256, env.settings.Configures version url sha256 →
              request.targetVersion = version →
                request.artifactUrl = url ∧ request.artifactSha256 = sha256 := by
  simp only [createUpgrade, Program.bind_eq, Program.ensures_bind, ensures_select]
  intro seen hseen
  rw [hs.view_eq hseen]
  cases db.getHost hostId with
  | none => exact fun _ hanswer => by cases hanswer
  | some host =>
      simp only
      split
      · exact fun _ hanswer => by cases hanswer
      · refine Program.Ensures.bind (ensures_findRequested hs hostId request.requestId) ?_
          fun _ _ _ _ hanswer => by cases hanswer
        rintro s₁ existing ⟨rfl, hexisting⟩
        cases existing with
        | some row =>
            intro upgrade hanswer
            left
            rw [← Except.ok.inj hexisting, Except.ok.inj hanswer]
        | none =>
            have hdowngrade := observes_refuseDowngrade env host request.targetVersion
            refine Program.Ensures.bind (hs.observe hdowngrade) ?_
              fun _ _ _ _ hanswer => by cases hanswer
            intro s₂ _ _
            refine Program.Ensures.bind (ensures_checkArtifact env.settings request) ?_
              fun _ _ _ _ hanswer => by cases hanswer
            rintro s₃ _ ⟨-, hpasses⟩
            refine (ensures_openUnlessPending env host request).mono ?_
            intro _ _ hnames upgrade hanswer
            exact .inr ⟨(Except.ok.inj hexisting).symm, hnames upgrade hanswer, hpasses rfl⟩

end Accepts

/-- What decides whether an accepted request keeps to the policy: for a request that has opened an
upgrade before, that row, and otherwise how the request spells its version. -/
def UpgradeIn.KeepsPolicy (env : Environment) (request : UpgradeIn) :
    Option HostUpgrade → Prop
  | some row => row.OnPolicy env
  | none => ¬ request.Respelled env

/-- An accepted upgrade keeps to the policy if and only if its request does not bring another
artifact for the configured version in another spelling. -/
theorem accepted_onPolicy_iff (env : Environment) (hostId : Uuid) (request : UpgradeIn)
    (draws : ℕ → Draw) (faults : ℕ → Option DbError) (db : Db) (upgrade : HostUpgrade)
    (haccepted : ((createUpgrade env hostId request).exec store (Session.start draws faults)
      db).result = .ok upgrade) :
    upgrade.OnPolicy env ↔
      request.KeepsPolicy env (db.requestedBefore hostId request.requestId) := by
  have hensures : (createUpgrade env hostId request).Ensures store (Program.alone store db)
      (fun _ => True) (Session.start draws faults) _ :=
    ensures_createUpgrade env hostId request (blank_start draws faults)
  rcases hensures.exec_start.1 upgrade haccepted with hbefore | ⟨hbefore, hnames, hpasses⟩
  · rw [hbefore]
    exact Iff.rfl
  · rw [hbefore]
    constructor
    · rintro hpolicy ⟨version, url, sha256, hconfigured, -, hequal, hother⟩
      have hkept := hpolicy version url sha256 hconfigured (hnames.targetVersion ▸ hequal)
      rw [hnames.artifactUrl, hnames.artifactSha256] at hkept
      exact hother.elim (fun h => h hkept.1) fun h => h hkept.2
    · intro hspelled version url sha256 hconfigured hequal
      rw [hnames.targetVersion] at hequal
      rw [hnames.artifactUrl, hnames.artifactSha256]
      by_cases htext : request.targetVersion = version
      · exact hpasses version url sha256 hconfigured htext
      · by_contra hother
        exact hspelled ⟨version, url, sha256, hconfigured, htext, hequal, by tauto⟩

/-! ## The configured version in another spelling -/

/-- Releases are ordered by their padded numbers. -/
def releaseEnvironment : Environment :=
  { sampleEnvironment with
    compareVersions := fun a b => do
      let as ← readRelease a
      let bs ← readRelease b
      pure (comparePadded as bs) }

theorem ordersReleases_releaseEnvironment : OrdersReleases releaseEnvironment := by
  intro a b
  simp only [releaseEnvironment, readRelease_text]

/-- Version 1.4.0 is configured. -/
def pinnedEnvironment : Environment :=
  { releaseEnvironment with
    settings :=
      { Settings.default with
        updateTargetVersion := some "1.4.0"
        updateArtifactUrl := some "https://example.org/agent-1.4.0.whl"
        updateArtifactSha256 := some "14" } }

/-- A request for a version with an artifact of its own. -/
def foreignUpgrade (version : String) : UpgradeIn :=
  { sampleUpgrade with
    targetVersion := version
    artifactUrl := "https://example.com/agent.whl" }

/-- The answer to a request, on the sample host. -/
def pinnedAnswer (request : UpgradeIn) : Except Failure HostUpgrade :=
  ((createUpgrade pinnedEnvironment sampleHost.id request).exec store
    (Session.start (sampleDraws 100) fun _ => none) sampleDb).result

/-- A request for version 1.4 with the artifact that is configured for 1.4.0. -/
def pinnedUpgrade : UpgradeIn :=
  { sampleUpgrade with
    targetVersion := "1.4"
    artifactUrl := "https://example.org/agent-1.4.0.whl"
    artifactSha256 := "14" }

/-- The request is accepted, its version equals the configured one in another spelling, and the
upgrade carries the configured artifact. -/
theorem accepted_onPolicy_iff_sample :
    ∃ upgrade, pinnedAnswer pinnedUpgrade = .ok upgrade ∧
      upgrade.targetVersion ≠ "1.4.0" ∧
      versionCompare pinnedEnvironment upgrade.targetVersion "1.4.0" = 0 ∧
      upgrade.OnPolicy pinnedEnvironment := by
  refine ⟨_, rfl, by decide, by decide, ?_⟩
  refine (accepted_onPolicy_iff pinnedEnvironment sampleHost.id pinnedUpgrade (sampleDraws 100)
    (fun _ => none) sampleDb _ rfl).mpr ?_
  rintro ⟨version, url, sha256, hconfigured, -, -, hother⟩
  have hurl := Option.some.inj hconfigured.url
  have hsha256 := Option.some.inj hconfigured.sha256
  exact hother.elim (fun h => h hurl) fun h => h hsha256

/-- Version 1.4 is accepted with another artifact than the one that is configured for version
1.4.0. -/
theorem respelled_accepted :
    OrdersReleases pinnedEnvironment ∧
      ∃ upgrade, pinnedAnswer (foreignUpgrade "1.4") = .ok upgrade ∧
        versionCompare pinnedEnvironment upgrade.targetVersion "1.4.0" = 0 ∧
        ¬ upgrade.OnPolicy pinnedEnvironment := by
  refine ⟨ordersReleases_releaseEnvironment, _, rfl, by decide, fun hpolicy => ?_⟩
  have hkept := hpolicy "1.4.0" _ _ ⟨rfl, rfl, rfl⟩ (by decide)
  exact absurd hkept.1 (by decide)

end Central
