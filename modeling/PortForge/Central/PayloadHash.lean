/-
# The fingerprint of an allocation payload

`_hash_payload` is the digest of a JSON text of the project, the host and the requests in the order
of their names. While the digest tells texts apart, it tells exactly those payloads apart that ask
for different things.
-/

import PortForge.Central.SingleCall
import PortForge.Python.Json

namespace Central

open Python

/-! ## The text -/

/-- One request of the payload as JSON. -/
def requestJson (request : CanonicalRequest) : Json :=
  .obj
    [("name", .str request.name), ("purpose", .str request.purpose),
      ("protocol", .str request.protocol), ("preferred_port", Json.optional .num request.preferredPort),
      ("requested_range", Json.optional .str request.requestedRange)]

/-- The dictionary that `_hash_payload` writes as JSON. -/
def payloadJson (payload : CanonicalPayload) : Json :=
  .obj
    [("project", .str payload.project), ("host_id", .str payload.hostId),
      ("requests", .arr (payload.requests.map requestJson))]

/-- The digest of the UTF-8 encoding of the payload's JSON text. -/
def jsonDigest (sha256 : ByteArray → String) (payload : CanonicalPayload) : String :=
  sha256 (dumps (payloadJson payload)).toUTF8

/-- The same project, the same host, and the same set of requests. -/
structure AllocationIn.AsksSame (p q : AllocationIn) : Prop where
  project : p.project = q.project
  hostId : p.hostId = q.hostId
  requests : ∀ item, item ∈ p.requests ↔ item ∈ q.requests

/-! ## What the text keeps -/

theorem sortKeys_requestJson_inj {a b : CanonicalRequest}
    (h : (requestJson a).sortKeys = (requestJson b).sortKeys) : a = b := by
  cases a
  cases b
  simpa [requestJson, Json.sortKeys, and_assoc, and_left_comm, and_comm] using h

theorem sortKeys_payloadJson_inj {a b : CanonicalPayload}
    (h : (payloadJson a).sortKeys = (payloadJson b).sortKeys) : a = b := by
  have hrequest : Function.Injective fun request => (requestJson request).sortKeys :=
    fun _ _ => sortKeys_requestJson_inj
  have hparts : a.hostId = b.hostId ∧ a.project = b.project ∧
      a.requests.map (fun request => (requestJson request).sortKeys) =
        b.requests.map fun request => (requestJson request).sortKeys := by
    simpa [payloadJson, Json.sortKeys, Function.comp_def] using h
  obtain ⟨hhost, hproject, hrequests⟩ := hparts
  have hequal := List.map_injective_iff.mpr hrequest hrequests
  cases a
  cases b
  subst hhost hproject hequal
  rfl

/-! ## What the payload keeps -/

theorem hexDigits_inj {width m n : ℕ} (hm : m < 16 ^ width) (hn : n < 16 ^ width)
    (h : hexDigits width m = hexDigits width n) : m = n := by
  induction width generalizing m n with
  | zero => simp_all
  | succ width ih =>
      rw [hexDigits, hexDigits] at h
      obtain ⟨hhigh, hlow⟩ := List.append_inj' h rfl
      have hdigit : ∀ a < 16, ∀ b < 16, Nat.digitChar a = Nat.digitChar b → a = b := by decide
      have hmod := hdigit _ (Nat.mod_lt m (by decide)) _ (Nat.mod_lt n (by decide))
        (List.cons.inj hlow).1
      rw [Nat.pow_succ, Nat.mul_comm] at hm hn
      have hdiv := ih (Nat.div_lt_of_lt_mul hm) (Nat.div_lt_of_lt_mul hn) hhigh
      omega

theorem ne_dash_of_mem_hexDigits {width n : ℕ} : ∀ c ∈ hexDigits width n, c ≠ '-' := by
  induction width generalizing n with
  | zero => exact fun c hc => by cases hc
  | succ width ih =>
      intro c hc
      rcases List.mem_append.mp hc with hc | hc
      · exact ih c hc
      · have hdigit : ∀ m < 16, Nat.digitChar m ≠ '-' := by decide
        rw [List.mem_singleton.mp hc]
        exact hdigit _ (Nat.mod_lt n (by decide))

/-- The digits are what the text has apart from its dashes. -/
theorem filter_text (id : Uuid) :
    id.text.toList.filter (fun c => c ≠ '-') = hexDigits 32 id.bits.toNat := by
  have hkeep : ∀ digits : List Char, (∀ c ∈ digits, c ∈ hexDigits 32 id.bits.toNat) →
      digits.filter (fun c => c ≠ '-') = digits := by
    intro digits hdigits
    apply List.filter_eq_self.mpr
    intro c hc
    exact decide_eq_true (ne_dash_of_mem_hexDigits c (hdigits c hc))
  have htake : ∀ (a b : ℕ) (c : Char), c ∈ ((hexDigits 32 id.bits.toNat).drop a).take b →
      c ∈ hexDigits 32 id.bits.toNat := fun a b c hc =>
    List.mem_of_mem_drop (List.mem_of_mem_take hc)
  have hdash : ['-'].filter (fun c => c ≠ '-') = [] := rfl
  rw [Uuid.text, String.toList_ofList]
  simp only [List.filter_append, hdash, List.append_nil, hkeep _ (htake _ _),
    hkeep _ fun c => List.mem_of_mem_take, hkeep _ fun c => List.mem_of_mem_drop]
  generalize hexDigits 32 id.bits.toNat = digits
  have hpart : ∀ n m, (digits.drop n).take m ++ digits.drop (n + m) = digits.drop n := by
    intro n m
    rw [← List.drop_drop, List.take_append_drop]
  rw [List.append_assoc, List.append_assoc, List.append_assoc, hpart 16 4, hpart 12 4, hpart 8 4,
    List.take_append_drop]

theorem Uuid.text_injective : Function.Injective Uuid.text := by
  intro a b h
  have hdigits := congrArg (fun text : String => text.toList.filter fun c => c ≠ '-') h
  simp only [filter_text] at hdigits
  have hbits := hexDigits_inj a.bits.isLt b.bits.isLt hdigits
  cases a
  cases b
  exact congrArg Uuid.mk (BitVec.eq_of_toNat_eq hbits)

/-- One request, as the text has it. -/
def AllocationRequestItem.canonical (item : AllocationRequestItem) : CanonicalRequest where
  name := item.name
  purpose := item.purpose
  protocol := item.protocol.value
  preferredPort := item.preferredPort
  requestedRange := item.requestedRange

theorem AllocationRequestItem.canonical_injective :
    Function.Injective AllocationRequestItem.canonical := by
  intro a b h
  have hprotocol : a.protocol = b.protocol := by
    have hvalue := congrArg CanonicalRequest.protocol h
    revert hvalue
    show a.protocol.value = b.protocol.value → _
    cases a.protocol <;> cases b.protocol <;> decide
  have hname := congrArg CanonicalRequest.name h
  have hpurpose := congrArg CanonicalRequest.purpose h
  have hport := congrArg CanonicalRequest.preferredPort h
  have hrange := congrArg CanonicalRequest.requestedRange h
  cases a
  cases b
  simp only [canonical] at hname hpurpose hport hrange hprotocol
  subst hname hpurpose hport hrange hprotocol
  rfl

theorem canonicalPayload_requests (p : AllocationIn) :
    (canonicalPayload p).requests =
      (p.requests.map AllocationRequestItem.canonical).insertionSort fun a b => a.name ≤ b.name :=
  rfl

theorem canonicalPayload_hostId (p : AllocationIn) :
    (canonicalPayload p).hostId = p.hostId.text := by
  rw [canonicalPayload]

theorem nodup_requests (p : AllocationIn) : p.requests.Nodup := p.names_nodup.of_map _

/-- Payloads have one canonical form, if and only if they ask for the same. -/
theorem canonicalPayload_eq_iff {p q : AllocationIn} :
    canonicalPayload p = canonicalPayload q ↔ p.AsksSame q := by
  constructor
  · intro h
    have hhost := congrArg CanonicalPayload.hostId h
    rw [canonicalPayload_hostId, canonicalPayload_hostId] at hhost
    refine ⟨congrArg CanonicalPayload.project h, Uuid.text_injective hhost, fun item => ?_⟩
    have hrequests := congrArg CanonicalPayload.requests h
    rw [canonicalPayload_requests, canonicalPayload_requests] at hrequests
    have hperm : (p.requests.map AllocationRequestItem.canonical).Perm
        (q.requests.map AllocationRequestItem.canonical) :=
      (List.perm_insertionSort _ _).symm.trans (hrequests.symm ▸ List.perm_insertionSort _ _)
    rw [← List.mem_map_of_injective AllocationRequestItem.canonical_injective,
      hperm.mem_iff, List.mem_map_of_injective AllocationRequestItem.canonical_injective]
  · intro h
    have hperm : p.requests.Perm q.requests :=
      (List.perm_ext_iff_of_nodup (nodup_requests p) (nodup_requests q)).mpr h.requests
    have hsorted : (canonicalPayload p).requests = (canonicalPayload q).requests := by
      rw [canonicalPayload_requests, canonicalPayload_requests]
      apply List.Perm.eq_of_pairwise _ (List.pairwise_insertionSort _ _)
        (List.pairwise_insertionSort _ _)
      · exact (List.perm_insertionSort _ _).trans
          ((hperm.map _).trans (List.perm_insertionSort _ _).symm)
      · -- The names order the requests strictly.
        intro a b ha hb hab hba
        rw [List.mem_insertionSort, List.mem_map] at ha hb
        obtain ⟨item, hitem, rfl⟩ := ha
        obtain ⟨other, hother, rfl⟩ := hb
        have hname : item.name = other.name := String.le_antisymm hab hba
        rw [List.inj_on_of_nodup_map p.names_nodup hitem (hperm.mem_iff.mpr hother) hname]
    have hhost : p.hostId.text = q.hostId.text := congrArg Uuid.text h.hostId
    have hproject := h.project
    rw [canonicalPayload, canonicalPayload] at hsorted ⊢
    simp only at hsorted
    rw [hproject, hhost, hsorted]

/-- While the digest tells texts apart, the fingerprints of two payloads are the same if and only
if they ask for the same. -/
theorem hashPayload_eq_iff (sha256 : ByteArray → String) (hsha256 : Function.Injective sha256)
    (env : Environment) (henv : env.digest = jsonDigest sha256) (p q : AllocationIn) :
    hashPayload env p = hashPayload env q ↔ p.AsksSame q := by
  rw [← canonicalPayload_eq_iff, hashPayload, hashPayload, henv]
  constructor
  · intro h
    have htext : dumps (payloadJson (canonicalPayload p)) =
        dumps (payloadJson (canonicalPayload q)) := String.toByteArray_inj.mp (hsha256 h)
    exact sortKeys_payloadJson_inj (dumps_eq_iff.mp htext)
  · intro h
    rw [h]

/-- A second request beside the sample one. -/
def rangedItem : AllocationRequestItem where
  name := "web"
  purpose := "frontend"
  protocol := .tcp
  preferredPort := none
  requestedRange := some "3000-3010"
  name_length := by decide
  name_stripped := by decide
  purpose_length := by decide
  preferredPort_bounds := preferredPort_none_bounds
  requestedRange_accepted := by decide
  preferredPort_within_range := by decide

/-- The two requests, in either order. -/
def orderedPayload (flip : Bool) : AllocationIn where
  project := "shop"
  hostId := sampleHost.id
  requests := if flip then [rangedItem, sampleItem] else [sampleItem, rangedItem]
  requestId := none
  project_length := shop_length
  requests_length := by cases flip <;> decide
  requestId_length := requestId_none_length
  names_nodup := by cases flip <;> decide

def hashingEnvironment : Environment :=
  { sampleEnvironment with digest := jsonDigest showBytes }

/-- The order of the requests does not matter. -/
theorem hashPayload_eq_iff_sample :
    hashPayload hashingEnvironment (orderedPayload true) =
      hashPayload hashingEnvironment (orderedPayload false) := by
  apply (hashPayload_eq_iff showBytes showBytes_injective hashingEnvironment rfl
    (orderedPayload true) (orderedPayload false)).mpr
  refine ⟨rfl, rfl, fun item => ?_⟩
  show item ∈ [rangedItem, sampleItem] ↔ item ∈ [sampleItem, rangedItem]
  exact (List.Perm.swap sampleItem rangedItem []).mem_iff

end Central
