/-
# The short syntax of Compose ports

`_parse_short_entry` takes an entry such as `127.0.0.1:8000:80/udp` apart by its colons, and
`_rewrite_short_entry` puts it together again with another host port. What it writes is read back
as the same entry, with that port.
-/

import PortForge.Python.Digits
import PortForge.Python.Value
import Mathlib.Tactic.Common

namespace Agent

open Python

/-- `ComposeError`. -/
structure ComposeError where
  code : String
  message : String
  details : List (List (String × Scalar))
  deriving DecidableEq, Repr

/-- What the editor raises: its own error, or one of Python's. -/
inductive ComposeFailure
  | compose (error : ComposeError)
  | typeError
  | valueError
  deriving DecidableEq, Repr

abbrev Editing := Except ComposeFailure

/-- What `_parse_short_entry` returns. -/
structure ShortEntry where
  ip : Option String
  host : Option String
  container : ℕ
  protocol : String
  deriving DecidableEq, Repr

/-- `_PROTOCOL_SUFFIX_RE.match` of a stripped text: the body, which has no line feed, and the
protocol. -/
def protocolSuffix (value : List Char) : Option (List Char × String) :=
  let body := value.take (value.length - 4)
  let suffix := value.drop (value.length - 4)
  if body = [] ∨ '\n' ∈ body then none
  else if suffix = "/tcp".toList then some (body, "tcp")
  else if suffix = "/udp".toList then some (body, "udp")
  else none

/-- `int` of a text of digits. -/
def readContainer (text : List Char) : Editing ℕ :=
  match readInt text with
  | some number => pure number.toNat
  | none => .error .valueError

/-- `text or None`. -/
def textOrNone (text : List Char) : Option String :=
  if text = [] then none else some (String.ofList text)

/-- `_parse_short_entry`. -/
def parseShortEntry (value : String) : Editing (Option ShortEntry) :=
  let value := stripChars value.toList
  let (body, protocol) := (protocolSuffix value).getD (value, "tcp")
  match body.splitOn ':' with
  | [container] => entryOf [] [] container protocol
  | [host, container] => entryOf [] host container protocol
  | [ip, host, container] => entryOf ip host container protocol
  | _ => pure none
where
  entryOf (ip host container : List Char) (protocol : String) : Editing (Option ShortEntry) :=
    if !isDigitText container || (host ≠ [] && !isDigitText host) then pure none
    else do
      let number ← readContainer container
      pure (some ⟨textOrNone ip, textOrNone host, number, protocol⟩)

/-- The text of an entry. -/
def shortText (ip : Option String) (host container suffix : String) : String :=
  match ip with
  | some ip => ip ++ ":" ++ host ++ ":" ++ container ++ suffix
  | none => host ++ ":" ++ container ++ suffix

/-- `_rewrite_short_entry`. -/
def rewriteShortEntry (value : String) (newHostPort : ℕ) : Editing String := do
  match ← parseShortEntry value with
  | none => .error .typeError
  | some entry =>
      let hadExplicitProtocol := (protocolSuffix (stripChars value.toList)).isSome
      let protocolSuffix := if hadExplicitProtocol then "/" ++ entry.protocol else ""
      pure (shortText entry.ip (toString newHostPort) (toString entry.container) protocolSuffix)

example : rewriteShortEntry " [::1]:80 " 9000 = .error .typeError := by decide
example : rewriteShortEntry "10.0.0.1:80:٠80/udp" 9000 = .ok "10.0.0.1:9000:80/udp" := by decide

/-! ## Protocol suffixes -/

section Suffix

variable {value body : List Char} {protocol : String}

theorem protocolSuffix_eq_some (h : protocolSuffix value = some (body, protocol)) :
    value = body ++ ("/" ++ protocol).toList ∧ body ≠ [] ∧ '\n' ∉ body ∧
      (protocol = "tcp" ∨ protocol = "udp") := by
  have hparts := (List.take_append_drop (value.length - 4) value).symm
  unfold protocolSuffix at h
  dsimp only at h
  split at h
  · cases h
  · rename_i hbody
    obtain ⟨hne, hfeed⟩ := not_or.mp hbody
    split at h
    · rename_i hsuffix
      cases h
      exact ⟨by rwa [hsuffix] at hparts, hne, hfeed, Or.inl rfl⟩
    · split at h
      · rename_i hsuffix
        cases h
        exact ⟨by rwa [hsuffix] at hparts, hne, hfeed, Or.inr rfl⟩
      · cases h

theorem protocolSuffix_append (hprotocol : protocol = "tcp" ∨ protocol = "udp") (hne : body ≠ [])
    (hfeed : '\n' ∉ body) :
    protocolSuffix (body ++ ("/" ++ protocol).toList) = some (body, protocol) := by
  rcases hprotocol with rfl | rfl <;> simp [protocolSuffix, hne, hfeed]

/-- A text that ends with a digit has no protocol. -/
theorem protocolSuffix_of_digit (h : ∀ c ∈ value.getLast?, isDigitChar c = true) :
    protocolSuffix value = none := by
  cases hsuffix : protocolSuffix value with
  | none => rfl
  | some result =>
      obtain ⟨body, protocol⟩ := result
      obtain ⟨rfl, -, -, rfl | rfl⟩ := protocolSuffix_eq_some hsuffix
      · exact absurd (h 'p' (by simp)) (by decide)
      · exact absurd (h 'p' (by simp)) (by decide)

end Suffix

/-! ## What is accepted -/

/-- What parsing ensures of an entry, with or without a protocol of its own. -/
structure ShortEntry.WellFormed (entry : ShortEntry) (explicit : Bool) : Prop where
  container : Printable entry.container
  protocol : if explicit then entry.protocol = "tcp" ∨ entry.protocol = "udp"
    else entry.protocol = "tcp"
  ip_ne_nil : ∀ ip ∈ entry.ip, ip.toList ≠ []
  ip_colon : ∀ ip ∈ entry.ip, ':' ∉ ip.toList
  ip_start : ∀ ip ∈ entry.ip, ∀ c ∈ ip.toList.head?, isSpace c = false
  ip_feed : explicit = true → ∀ ip ∈ entry.ip, '\n' ∉ ip.toList

/-- The protocol of an entry as it is written. -/
def suffixText (explicit : Bool) (protocol : String) : String :=
  if explicit then "/" ++ protocol else ""

section Parsing

variable {value : String} {entry : ShortEntry} {ip host container : List Char} {protocol : String}

theorem entryOf_eq_some (h : parseShortEntry.entryOf ip host container protocol = .ok (some entry)) :
    entry.ip = textOrNone ip ∧ entry.protocol = protocol ∧ Printable entry.container := by
  unfold parseShortEntry.entryOf at h
  split at h
  · cases h
  · rename_i hdigits
    have hcontainer : isDigitText container = true := by
      by_contra hnot
      exact hdigits (by simp [hnot])
    cases hread : readInt container with
    | none => simp [readContainer, hread, bind, Except.bind] at h
    | some number =>
        obtain ⟨n, rfl, hprintable⟩ := printable_of_readInt hcontainer hread
        simp only [readContainer, hread, bind, Except.bind, pure, Except.pure, Except.ok.injEq,
          Option.some.injEq] at h
        subst h
        exact ⟨rfl, rfl, hprintable⟩

/-- What the parts of an accepted body say of the entry. -/
theorem wellFormed_of_body {body : List Char} {explicit : Bool}
    (hprotocol : if explicit then protocol = "tcp" ∨ protocol = "udp" else protocol = "tcp")
    (hstart : ∀ c ∈ body.head?, isSpace c = false) (hfeed : explicit = true → '\n' ∉ body)
    (hip : ip = [] ∨ ∃ others, body.splitOn ':' = ip :: others)
    (h : parseShortEntry.entryOf ip host container protocol = .ok (some entry)) :
    entry.WellFormed explicit := by
  obtain ⟨hentryIp, rfl, hcontainer⟩ := entryOf_eq_some h
  have hfields : ∀ text ∈ entry.ip, text.toList = ip ∧ ip ≠ [] := by
    intro text htext
    rw [hentryIp, textOrNone] at htext
    split at htext
    · cases htext
    · rename_i hne
      cases htext
      exact ⟨String.toList_ofList, hne⟩
  have hparts : ip ≠ [] → ip <+: body ∧ ':' ∉ ip := by
    intro hne
    obtain ⟨others, hsplit⟩ := hip.resolve_left hne
    refine ⟨?_, not_mem_of_mem_splitOn (hsplit ▸ List.mem_cons_self)⟩
    have hjoin : [':'].intercalate (body.splitOn ':') = body := List.intercalate_splitOn ':'
    rw [hsplit] at hjoin
    rw [← hjoin]
    cases others with
    | nil => simp
    | cons next others =>
        rw [List.intercalate_cons_cons, List.append_assoc]
        exact List.prefix_append _ _
  refine ⟨hcontainer, hprotocol, ?_, ?_, ?_, ?_⟩
  · intro text htext
    obtain ⟨heq, hne⟩ := hfields text htext
    rwa [heq]
  · intro text htext
    obtain ⟨heq, hne⟩ := hfields text htext
    rw [heq]
    exact (hparts hne).2
  · intro text htext c hc
    obtain ⟨heq, hne⟩ := hfields text htext
    obtain ⟨back, rfl⟩ := (hparts hne).1
    rw [heq] at hc
    exact hstart c (List.head?_append_of_ne_nil _ hne ▸ hc)
  · intro hexplicit text htext hmem
    obtain ⟨heq, hne⟩ := hfields text htext
    exact hfeed hexplicit ((hparts hne).1.subset (heq ▸ hmem))

theorem wellFormed_of_parseShortEntry (h : parseShortEntry value = .ok (some entry)) :
    entry.WellFormed (protocolSuffix (stripChars value.toList)).isSome := by
  have hstart : ∀ c ∈ (stripChars value.toList).head?, isSpace c = false :=
    fun c hc => head_stripChars hc
  obtain ⟨body, protocol, hbody, hprotocol, hhead, hfeed⟩ : ∃ body protocol,
      (protocolSuffix (stripChars value.toList)).getD (stripChars value.toList, "tcp")
        = (body, protocol) ∧
      (if (protocolSuffix (stripChars value.toList)).isSome then
        protocol = "tcp" ∨ protocol = "udp" else protocol = "tcp") ∧
      (∀ c ∈ body.head?, isSpace c = false) ∧
      ((protocolSuffix (stripChars value.toList)).isSome = true → '\n' ∉ body) := by
    cases hsuffix : protocolSuffix (stripChars value.toList) with
    | none => exact ⟨_, _, rfl, rfl, hstart, nofun⟩
    | some result =>
        obtain ⟨body, protocol⟩ := result
        obtain ⟨hsplit, hne, hfeed, hprotocol⟩ := protocolSuffix_eq_some hsuffix
        refine ⟨body, protocol, rfl, hprotocol, fun c hc => ?_, fun _ => hfeed⟩
        apply hstart c
        rw [hsplit, List.head?_append_of_ne_nil _ hne]
        exact hc
  unfold parseShortEntry at h
  dsimp only at h
  rw [hbody] at h
  dsimp only at h
  split at h
  · exact wellFormed_of_body hprotocol hhead hfeed (Or.inl rfl) h
  · exact wellFormed_of_body hprotocol hhead hfeed (Or.inl rfl) h
  · rename_i ip host container hparts
    exact wellFormed_of_body hprotocol hhead hfeed (Or.inr ⟨_, hparts⟩) h
  · cases h

/-- The parts of a text between its colons. -/
def shortParts (ip : Option String) (host container : String) : List (List Char) :=
  ip.toList.map String.toList ++ [host.toList, container.toList]

theorem toList_shortText (ip : Option String) (host container suffix : String) :
    (shortText ip host container suffix).toList =
      [':'].intercalate (shortParts ip host container) ++ suffix.toList := by
  cases ip <;> simp [shortText, shortParts, List.intercalate_cons_cons]

theorem not_mem_digits {c : Char} (h : isDigitChar c = false) (n : ℕ) : c ∉ (toString n).toList := by
  intro hmem
  have hdigits := (Bool.and_eq_true_iff.mp (isDigitText_toString n)).2
  rw [List.all_eq_true.mp hdigits c hmem] at h
  cases h

theorem head_digits {c : Char} {n : ℕ} {rest : List Char}
    (h : c ∈ ((toString n).toList ++ rest).head?) : isDigitChar c = true := by
  have hdigits := (Bool.and_eq_true_iff.mp (isDigitText_toString n)).2
  rw [List.head?_append_of_ne_nil _ (by simp)] at h
  exact List.all_eq_true.mp hdigits c (List.mem_of_mem_head? h)

theorem last_digits {c : Char} {n : ℕ} {front : List Char}
    (h : c ∈ (front ++ (toString n).toList).getLast?) : isDigitChar c = true := by
  have hdigits := (Bool.and_eq_true_iff.mp (isDigitText_toString n)).2
  rw [List.getLast?_append_of_ne_nil _ (by simp)] at h
  exact List.all_eq_true.mp hdigits c (List.mem_of_mem_getLast? h)

/-- The body of a written entry: where it starts and ends, and how it is split. -/
theorem body_facts {explicit : Bool} (hentry : entry.WellFormed explicit) (port : ℕ) :
    let body := [':'].intercalate (shortParts entry.ip (toString port) (toString entry.container))
    (∀ c ∈ body.head?, isSpace c = false) ∧ (∃ front, body = front ++ (toString entry.container).toList) ∧
      (explicit = true → '\n' ∉ body) ∧
      body.splitOn ':' = shortParts entry.ip (toString port) (toString entry.container) := by
  have hcolon : ∀ n : ℕ, ':' ∉ (toString n).toList := not_mem_digits (by decide)
  have hnewline : ∀ n : ℕ, '\n' ∉ (toString n).toList := not_mem_digits (by decide)
  dsimp only
  refine ⟨?_, ?_, ?_, ?_⟩
  · cases hip : entry.ip with
    | none =>
        intro c hc
        simp only [shortParts, Option.toList_none, List.map_nil, List.nil_append,
          List.intercalate_cons_cons, List.append_assoc] at hc
        exact not_isSpace_of_isDigitChar (head_digits hc)
    | some ip =>
        intro c hc
        simp only [shortParts, Option.toList_some, List.map_cons, List.map_nil, List.cons_append,
          List.nil_append, List.intercalate_cons_cons, List.append_assoc] at hc
        rw [List.head?_append_of_ne_nil _ (hentry.ip_ne_nil ip hip)] at hc
        exact hentry.ip_start ip hip c hc
  · cases entry.ip with
    | none => exact ⟨(toString port).toList ++ [':'], by simp [shortParts, List.intercalate_cons_cons]⟩
    | some ip =>
        exact ⟨ip.toList ++ [':'] ++ ((toString port).toList ++ [':']), by
          simp [shortParts, List.intercalate_cons_cons]⟩
  · intro hexplicit
    cases hip : entry.ip with
    | none =>
        simp only [shortParts, Option.toList_none, List.map_nil, List.nil_append,
          List.intercalate_cons_cons, List.intercalate_singleton, List.mem_append, not_or]
        exact ⟨⟨hnewline port, by decide⟩, hnewline entry.container⟩
    | some ip =>
        simp only [shortParts, Option.toList_some, List.map_cons, List.map_nil, List.cons_append,
          List.nil_append, List.intercalate_cons_cons, List.intercalate_singleton, List.mem_append,
          not_or]
        exact ⟨⟨hentry.ip_feed hexplicit ip hip, by decide⟩, ⟨hnewline port, by decide⟩,
          hnewline entry.container⟩
  · apply List.splitOn_intercalate
    · intro part hpart
      simp only [shortParts, List.mem_append, List.mem_map, List.mem_cons, List.not_mem_nil,
        or_false, Option.mem_toList] at hpart
      rcases hpart with ⟨ip, hip, rfl⟩ | rfl | rfl
      · exact hentry.ip_colon ip hip
      · exact hcolon port
      · exact hcolon entry.container
    · simp [shortParts]

theorem entryOf_digits (ip : List Char) (port : ℕ) {n : ℕ} (hn : Printable n) (protocol : String) :
    parseShortEntry.entryOf ip (toString port).toList (toString n).toList protocol =
      .ok (some ⟨textOrNone ip, some (toString port), n, protocol⟩) := by
  have hport : (toString port).toList ≠ [] := by simp
  have hread : readContainer (toString n).toList = .ok n := by
    rw [readContainer, readInt_toString hn]
    rfl
  rw [parseShortEntry.entryOf, isDigitText_toString, isDigitText_toString, if_neg (by simp), hread,
    textOrNone, textOrNone, if_neg hport, String.ofList_toList]
  rfl

/-- The text of a well-formed entry is read as that entry. -/
theorem parseShortEntry_shortText {explicit : Bool} (hentry : entry.WellFormed explicit) (port : ℕ) :
    let text := shortText entry.ip (toString port) (toString entry.container)
      (suffixText explicit entry.protocol)
    parseShortEntry text = .ok (some { entry with host := some (toString port) }) ∧
      (protocolSuffix (stripChars text.toList)).isSome = explicit := by
  obtain ⟨hhead, ⟨front, hfront⟩, hfeed, hsplit⟩ := body_facts hentry port
  have hparse : parseShortEntry.entryOf (entry.ip.elim [] String.toList) (toString port).toList
      (toString entry.container).toList entry.protocol =
        .ok (some { entry with host := some (toString port) }) := by
    rw [entryOf_digits _ _ hentry.container]
    obtain ⟨ip, host, container, protocol⟩ := entry
    cases ip with
    | none => rfl
    | some ip =>
        have hne : ip.toList ≠ [] := hentry.ip_ne_nil ip rfl
        simp [textOrNone, hne]
  have hfinish : ∀ body : List Char, body = [':'].intercalate
      (shortParts entry.ip (toString port) (toString entry.container)) →
      ∀ text : String, (protocolSuffix (stripChars text.toList)).getD
          (stripChars text.toList, "tcp") = (body, entry.protocol) →
        parseShortEntry text = .ok (some { entry with host := some (toString port) }) := by
    rintro body rfl text htext
    unfold parseShortEntry
    dsimp only
    rw [htext]
    dsimp only
    rw [hsplit, ← hparse]
    cases entry.ip <;> rfl
  dsimp only
  cases explicit with
  | false =>
      have htext : (shortText entry.ip (toString port) (toString entry.container)
          (suffixText false entry.protocol)).toList = [':'].intercalate
            (shortParts entry.ip (toString port) (toString entry.container)) := by
        simp [toList_shortText, suffixText]
      have hlast : ∀ c ∈ ([':'].intercalate
          (shortParts entry.ip (toString port) (toString entry.container))).getLast?,
          isDigitChar c = true := by
        intro c hc
        rw [hfront] at hc
        exact last_digits hc
      have hstrip := stripChars_eq_self hhead fun c hc => not_isSpace_of_isDigitChar (hlast c hc)
      have hnone := protocolSuffix_of_digit hlast
      have htcp : entry.protocol = "tcp" := hentry.protocol
      rw [htext, hstrip, hnone]
      refine ⟨hfinish _ rfl _ ?_, rfl⟩
      rw [htext, hstrip, hnone, htcp]
      rfl
  | true =>
      have htext : (shortText entry.ip (toString port) (toString entry.container)
          (suffixText true entry.protocol)).toList = [':'].intercalate
            (shortParts entry.ip (toString port) (toString entry.container)) ++
              ("/" ++ entry.protocol).toList := by
        simp [toList_shortText, suffixText]
      have hprotocol : entry.protocol = "tcp" ∨ entry.protocol = "udp" := hentry.protocol
      have hne : [':'].intercalate
          (shortParts entry.ip (toString port) (toString entry.container)) ≠ [] := by
        cases entry.ip <;> simp [shortParts, List.intercalate_cons_cons]
      have hlast : ∀ c ∈ ([':'].intercalate (shortParts entry.ip (toString port)
          (toString entry.container)) ++ ("/" ++ entry.protocol).toList).getLast?,
          isSpace c = false := by
        intro c hc
        rcases hprotocol with h | h <;> rw [h] at hc <;> simp at hc <;> subst hc <;> decide
      have hstrip := stripChars_eq_self
        (fun c hc => hhead c (List.head?_append_of_ne_nil _ hne ▸ hc)) hlast
      have hsome := protocolSuffix_append hprotocol hne (hfeed rfl)
      rw [htext, hstrip, hsome]
      refine ⟨hfinish _ rfl _ ?_, rfl⟩
      rw [htext, hstrip, hsome]
      rfl

end Parsing

/-! ## The round trip -/

theorem rewriteShortEntry_eq {value : String} {entry : ShortEntry}
    (h : parseShortEntry value = .ok (some entry)) (port : ℕ) :
    rewriteShortEntry value port = .ok (shortText entry.ip (toString port)
      (toString entry.container)
      (suffixText (protocolSuffix (stripChars value.toList)).isSome entry.protocol)) := by
  rw [rewriteShortEntry, h]
  rfl

/-- A rewritten entry is read as the same entry with the new host port, and rewriting it once more
gives the same text. -/
theorem parseShortEntry_rewriteShortEntry (value : String) (entry : ShortEntry)
    (h : parseShortEntry value = .ok (some entry)) (port : ℕ) :
    ∃ text, rewriteShortEntry value port = .ok text ∧
      parseShortEntry text = .ok (some { entry with host := some (toString port) }) ∧
      rewriteShortEntry text port = .ok text := by
  obtain ⟨hparse, hexplicit⟩ :=
    parseShortEntry_shortText (wellFormed_of_parseShortEntry h) port
  refine ⟨_, rewriteShortEntry_eq h port, hparse, ?_⟩
  rw [rewriteShortEntry_eq hparse, hexplicit]

theorem parseShortEntry_rewriteShortEntry_udp :
    ∃ text, rewriteShortEntry "127.0.0.1:8000:80/udp" 9000 = .ok text ∧
      parseShortEntry text = .ok (some ⟨some "127.0.0.1", some "9000", 80, "udp"⟩) ∧
      rewriteShortEntry text 9000 = .ok text :=
  parseShortEntry_rewriteShortEntry "127.0.0.1:8000:80/udp"
    ⟨some "127.0.0.1", some "8000", 80, "udp"⟩ (by decide) 9000

end Agent
