/-
# References to hosts

`resolve_host_ref` looks for a host in one page of Central's list. An identifier has to be written
as Central writes it, and the host has to be among the 500 that were seen last; a name is counted
on that page only.
-/

import PortForge.Agent.Workflow
import PortForge.Central.UuidText

namespace Agent

open Central

/-- The error of `resolve_host_ref`: message and code. -/
structure HostError where
  message : String
  code : String
  deriving DecidableEq

/-- What the listing says of a host. -/
def hostRef (host : Host) : NormalizedHostRef := ⟨host.id.text, host.hostname⟩

/-- The hosts that `list_hosts` asks for. -/
def hostLimit : ℕ := 500

/-- `HostRepository.list`, without an offset: the hosts that were seen last. -/
def Db.hostPage (db : Db) (limit : ℕ) : List Host :=
  (db.hosts.insertionSort fun a b => b.lastSeen ≤ a.lastSeen).take limit

/-- `resolve_host_ref`, from what `client.list_hosts()` returns. `lower` is Unicode's lower case of
a text. -/
def resolveHostRef (lower : String → String) (listHosts : Except String (List NormalizedHostRef))
    (hostArg : String) : Except HostError NormalizedHostRef :=
  match listHosts with
  | .error error =>
      .error ⟨s!"Could not reach Central to resolve host '{hostArg}': {error}", "HOST_NOT_FOUND"⟩
  | .ok items =>
      if (readUuid hostArg).isSome then
        match items.find? fun item => item.id = hostArg with
        | none => .error ⟨s!"No host with id '{hostArg}' is known to Central.", "HOST_NOT_FOUND"⟩
        | some item => .ok item
      else
        match items.filter fun item => lower item.hostname = lower hostArg with
        | [] => .error ⟨s!"No host named '{hostArg}' is known to Central.", "HOST_NOT_FOUND"⟩
        | [item] => .ok item
        | _ =>
            .error ⟨s!"Multiple hosts named '{hostArg}' are known to Central; use its UUID instead.",
              "HOST_AMBIGUOUS"⟩

/-- The reference of an agent that reaches Central. -/
def resolveHost (lower : String → String) (db : Db) (hostArg : String) :
    Except HostError NormalizedHostRef :=
  resolveHostRef lower (.ok ((Db.hostPage db hostLimit).map hostRef)) hostArg

section Resolution

variable (lower : String → String) (db : Db) (hostArg : String)

/-- The hosts that a name means. -/
def namedHosts (hosts : List Host) : List Host :=
  hosts.filter fun host => lower host.hostname = lower hostArg

/-- An identifier means the host that has it; a name means the only host that has it, and is
ambiguous where several do. -/
def ResolvesExactly (result : Except HostError NormalizedHostRef) : Prop :=
  match readUuid hostArg with
  | some id => ∀ ref, result = .ok ref ↔ ∃ host ∈ db.hosts, host.id = id ∧ ref = hostRef host
  | none =>
      (∀ ref, result = .ok ref ↔
        ∃ host, namedHosts lower hostArg db.hosts = [host] ∧ ref = hostRef host) ∧
      (2 ≤ (namedHosts lower hostArg db.hosts).length →
        ∃ message, result = .error ⟨message, "HOST_AMBIGUOUS"⟩)

/-- An identifier is written as Central writes it and its host is on the page; all hosts with a
name are on the page, or two of them. -/
def OnPage : Prop :=
  match readUuid hostArg with
  | some id => ∀ host ∈ db.hosts, host.id = id →
      hostArg = id.text ∧ host ∈ Db.hostPage db hostLimit
  | none =>
      (∀ host ∈ namedHosts lower hostArg db.hosts, host ∈ Db.hostPage db hostLimit) ∨
        2 ≤ (namedHosts lower hostArg (Db.hostPage db hostLimit)).length

instance : Decidable (OnPage lower db hostArg) := by
  unfold OnPage
  split <;> infer_instance

variable {lower db hostArg}

theorem hostRef_id (host : Host) : (hostRef host).id = host.id.text := by
  rw [hostRef]

theorem hostRef_inj {host other : Host} (h : hostRef host = hostRef other) : host.id = other.id := by
  rw [hostRef, hostRef, NormalizedHostRef.mk.injEq] at h
  exact Uuid.text_injective h.1

theorem text_of_find {hosts : List Host} {found : Host}
    (h : hosts.find? (fun host => host.id.text = hostArg) = some found) :
    found.id.text = hostArg := by
  simpa using List.find?_some h

theorem mem_of_mem_hostPage {host : Host} {limit : ℕ} (h : host ∈ Db.hostPage db limit) :
    host ∈ db.hosts :=
  (List.mem_insertionSort _).mp (List.mem_of_mem_take h)

theorem nodup_hostPage (hids : (db.hosts.map Host.id).Nodup) (limit : ℕ) :
    (Db.hostPage db limit).Nodup :=
  ((List.perm_insertionSort _ db.hosts).nodup_iff.mpr (List.Nodup.of_map _ hids)).sublist
    (List.take_sublist _ _)

theorem eq_of_id_eq (hids : (db.hosts.map Host.id).Nodup) {host other : Host}
    (hhost : host ∈ db.hosts) (hother : other ∈ db.hosts) (h : host.id = other.id) :
    host = other :=
  List.inj_on_of_nodup_map hids hhost hother h

/-- An identifier finds the host on the page that is written like it. -/
theorem resolveHost_of_uuid {id : Uuid} (hid : readUuid hostArg = some id)
    {ref : NormalizedHostRef} : resolveHost lower db hostArg = .ok ref ↔
      ∃ host, (Db.hostPage db hostLimit).find? (fun host => host.id.text = hostArg) = some host ∧
        ref = hostRef host := by
  unfold resolveHost resolveHostRef
  dsimp only
  rw [hid, if_pos Option.isSome_some, List.find?_map]
  simp only [Function.comp_def, hostRef_id]
  cases (Db.hostPage db hostLimit).find? fun host => decide (host.id.text = hostArg) with
  | none => simp
  | some host => simp [eq_comm]

/-- A name counts the hosts on the page that have it. -/
theorem resolveHost_of_name (hid : readUuid hostArg = none) :
    (∀ ref, resolveHost lower db hostArg = .ok ref ↔
      ∃ host, namedHosts lower hostArg (Db.hostPage db hostLimit) = [host] ∧ ref = hostRef host) ∧
    ((∃ message, resolveHost lower db hostArg = .error ⟨message, "HOST_AMBIGUOUS"⟩) ↔
      2 ≤ (namedHosts lower hostArg (Db.hostPage db hostLimit)).length) := by
  unfold resolveHost resolveHostRef
  dsimp only
  rw [hid, if_neg (by simp), List.filter_map]
  have hsame : (Db.hostPage db hostLimit).filter
      ((fun item : NormalizedHostRef => decide (lower item.hostname = lower hostArg)) ∘ hostRef) =
        namedHosts lower hostArg (Db.hostPage db hostLimit) := rfl
  rw [hsame]
  cases namedHosts lower hostArg (Db.hostPage db hostLimit) with
  | nil => simp
  | cons host others =>
      cases others with
      | nil => simp [eq_comm]
      | cons other others => simp

/-- The hosts on the page with a name are some of those registered with it. -/
theorem namedHosts_page_subperm (hids : (db.hosts.map Host.id).Nodup) (limit : ℕ) :
    (namedHosts lower hostArg (Db.hostPage db limit)).Subperm
      (namedHosts lower hostArg db.hosts) := by
  apply ((nodup_hostPage hids limit).filter _).subperm
  intro host hhost
  obtain ⟨hpage, hname⟩ := List.mem_filter.mp hhost
  exact List.mem_filter.mpr ⟨mem_of_mem_hostPage hpage, hname⟩

/-- A reference is resolved exactly when the page shows what it means. -/
theorem resolveHost_exact_iff (lower : String → String) (db : Db) (hostArg : String)
    (hids : (db.hosts.map Host.id).Nodup) :
    ResolvesExactly lower db hostArg (resolveHost lower db hostArg) ↔ OnPage lower db hostArg := by
  unfold ResolvesExactly OnPage
  cases hid : readUuid hostArg with
  | some id =>
      dsimp only
      constructor
      · intro hexact host hhost hsame
        obtain ⟨found, hfound, href⟩ :=
          (resolveHost_of_uuid hid).mp ((hexact (hostRef host)).mpr ⟨host, hhost, hsame, rfl⟩)
        have hpage := List.mem_of_find?_eq_some hfound
        have htext := text_of_find hfound
        have heq := eq_of_id_eq hids hhost (mem_of_mem_hostPage hpage) (hostRef_inj href)
        rw [← hsame, heq]
        exact ⟨htext.symm, hpage⟩
      · intro hpage ref
        rw [resolveHost_of_uuid hid]
        constructor
        · rintro ⟨found, hfound, rfl⟩
          have htext := text_of_find hfound
          have hread := readUuid_text found.id
          rw [htext, hid, Option.some.injEq] at hread
          exact ⟨found, mem_of_mem_hostPage (List.mem_of_find?_eq_some hfound), hread.symm, rfl⟩
        · rintro ⟨host, hhost, hsame, rfl⟩
          obtain ⟨htext, hin⟩ := hpage host hhost hsame
          cases hfound : (Db.hostPage db hostLimit).find? fun host => host.id.text = hostArg with
          | none =>
              have hnot := List.find?_eq_none.mp hfound host hin
              rw [hsame, htext] at hnot
              exact absurd (decide_eq_true rfl) hnot
          | some found =>
              have hwritten := text_of_find hfound
              have hsameId : host.id = found.id :=
                Uuid.text_injective (by rw [hwritten, htext, hsame])
              exact ⟨found, rfl, by rw [eq_of_id_eq hids hhost
                (mem_of_mem_hostPage (List.mem_of_find?_eq_some hfound)) hsameId]⟩
  | none =>
      dsimp only
      obtain ⟨hok, hambiguous⟩ := @resolveHost_of_name lower db hostArg hid
      have hsub := @namedHosts_page_subperm lower db hostArg hids hostLimit
      have hlength := hsub.length_le
      constructor
      · rintro ⟨hexact, hseveral⟩
        by_cases htwo : 2 ≤ (namedHosts lower hostArg (Db.hostPage db hostLimit)).length
        · exact Or.inr htwo
        · have hfew : ¬ 2 ≤ (namedHosts lower hostArg db.hosts).length := fun hmany =>
            htwo (hambiguous.mp (hseveral hmany))
          refine Or.inl fun host hhost => ?_
          have hone : namedHosts lower hostArg db.hosts = [host] := by
            obtain ⟨only, honly⟩ := List.length_eq_one_iff.mp
              (show (namedHosts lower hostArg db.hosts).length = 1 by
                have hpos := List.length_pos_of_mem hhost
                omega)
            rw [honly, List.mem_singleton] at hhost
            rw [honly, hhost]
          obtain ⟨found, hfound, href⟩ :=
            (hok _).mp ((hexact (hostRef host)).mpr ⟨host, hone, rfl⟩)
          have hmem : found ∈ namedHosts lower hostArg (Db.hostPage db hostLimit) :=
            hfound ▸ List.mem_singleton_self found
          have hpage := (List.mem_filter.mp hmem).1
          rwa [eq_of_id_eq hids (List.mem_filter.mp hhost).1 (mem_of_mem_hostPage hpage)
            (hostRef_inj href)]
      · rintro (hall | htwo)
        · have hperm : (namedHosts lower hostArg (Db.hostPage db hostLimit)).Perm
              (namedHosts lower hostArg db.hosts) := by
            refine hsub.perm_of_length_le ?_
            refine (((List.Nodup.of_map _ hids).filter _).subperm fun host hhost => ?_).length_le
            exact List.mem_filter.mpr ⟨hall host hhost, (List.mem_filter.mp hhost).2⟩
          have hsingle : ∀ host, namedHosts lower hostArg (Db.hostPage db hostLimit) = [host] ↔
              namedHosts lower hostArg db.hosts = [host] := fun host =>
            ⟨fun h => List.perm_singleton.mp (h ▸ hperm.symm),
              fun h => List.perm_singleton.mp (h ▸ hperm)⟩
          refine ⟨fun ref => ?_, fun hmany => hambiguous.mpr (hperm.length_eq ▸ hmany)⟩
          rw [hok]
          simp only [hsingle]
        · refine ⟨fun ref => ?_, fun _ => hambiguous.mpr htwo⟩
          rw [hok]
          constructor
          · rintro ⟨host, hone, -⟩
            rw [hone] at htwo
            exact absurd htwo (Nat.not_succ_le_self 1)
          · rintro ⟨host, hone, -⟩
            rw [hone] at hlength
            exact absurd (htwo.trans hlength) (Nat.not_succ_le_self 1)

end Resolution

/-- Lower case, of ASCII. -/
def lowerAscii (text : String) : String := String.ofList (text.toList.map Char.toLower)

/-- Three hosts, two of them with one name but for the case. -/
def namesakesDb : Db :=
  { sampleDb with
    hosts := [sampleHost, { sampleHost with id := ⟨2⟩, hostname := "DB-1", lastSeen := 5 },
      { sampleHost with id := ⟨3⟩, hostname := "db-1", lastSeen := 3 }] }

/-- A host is found by its identifier and by its name, and a name of two is ambiguous. -/
theorem resolveHost_exact_iff_sample :
    ResolvesExactly lowerAscii namesakesDb "00000000-0000-0000-0000-000000000003"
        (resolveHost lowerAscii namesakesDb "00000000-0000-0000-0000-000000000003") ∧
      ResolvesExactly lowerAscii namesakesDb "WEB-1"
        (resolveHost lowerAscii namesakesDb "WEB-1") ∧
      ResolvesExactly lowerAscii namesakesDb "db-1"
        (resolveHost lowerAscii namesakesDb "db-1") := by
  have hids : (namesakesDb.hosts.map Host.id).Nodup := by decide +kernel
  refine ⟨(resolveHost_exact_iff _ _ _ hids).mpr ?_, (resolveHost_exact_iff _ _ _ hids).mpr ?_,
    (resolveHost_exact_iff _ _ _ hids).mpr ?_⟩
  · decide +kernel
  · decide +kernel
  · decide +kernel

/-- An identifier without dashes means the same host and is not found. -/
theorem not_resolveHost_exact :
    ¬ ∀ (lower : String → String) (db : Db) (hostArg : String), (db.hosts.map Host.id).Nodup →
      ResolvesExactly lower db hostArg (resolveHost lower db hostArg) := by
  intro h
  have hexact := h id sampleDb "00000000000000000000000000000001" (by decide)
  have hread : readUuid "00000000000000000000000000000001" = some sampleHost.id := by decide
  unfold ResolvesExactly at hexact
  rw [hread] at hexact
  have hfound := (hexact (hostRef sampleHost)).mpr ⟨sampleHost, List.mem_singleton_self _, rfl, rfl⟩
  obtain ⟨host, hhost, -⟩ := (resolveHost_of_uuid hread).mp hfound
  have hnone : (Db.hostPage sampleDb hostLimit).find? (fun host =>
      host.id.text = "00000000000000000000000000000001") = none := by decide
  rw [hnone] at hhost
  cases hhost

end Agent
