/-
# What an entry of a ports list publishes

An entry is an integer, a text or a mapping. A text is split at its last two colons, so that an
address may have colons of its own, and at the slash before its protocol. What the editor reads
of such a text and what it writes agree with this meaning.
-/

import Mathlib
import PortForge.Agent.ComposeEditor
import PortForge.Effects.Exceptions

namespace Agent.Compose

open Python

/-- What an entry publishes: the first and the last port of the host, unless one is chosen, and
those of the container. -/
structure Publication where
  ip : Option String
  host : Option (ℕ × ℕ)
  container : ℕ × ℕ
  protocol : String
  deriving DecidableEq, Repr

/-- The binding is among what is published. -/
def Publication.Covers (publication : Publication) (port : ℕ) (protocol : String) : Prop :=
  publication.container.1 ≤ port ∧ port ≤ publication.container.2 ∧
    publication.protocol = protocol

/-! ## Texts -/

/-- A port in decimal digits. -/
def portNumber (text : List Char) : Option ℕ :=
  if text ≠ [] && text.all isDecimal then
    ((readInt text).map Int.toNat).filter fun port => port ≤ 65535
  else none

/-- A port, or a range of ports. -/
def portRange (text : List Char) : Option (ℕ × ℕ) :=
  match text.splitOn '-' with
  | [port] => (portNumber port).map fun port => (port, port)
  | [first, last] => do
      let first ← portNumber first
      let last ← portNumber last
      if first ≤ last then some (first, last) else none
  | _ => none

/-- The ports of the host, which may be left open. -/
def hostRange (text : List Char) : Option (Option (ℕ × ℕ)) :=
  if text = [] then some none else (portRange text).map some

/-- The characters of an address. -/
def isAddressChar (c : Char) : Bool :=
  isDecimal c || "abcdefABCDEF.:[]".toList.contains c

/-- A protocol, in upper or lower case. -/
def protocolOf (text : List Char) : Option String :=
  ["tcp", "udp", "sctp"].find? fun protocol => text.map Char.toLower = protocol.toList

/-- What a text without its protocol publishes. -/
def bodyPublication (body : List Char) (protocol : String) : Option Publication :=
  match (body.splitOn ':').reverse with
  | [] => none
  | container :: others =>
      let ip := [':'].intercalate others.tail.reverse
      if ip.all isAddressChar then do
        let ports ← portRange container
        let host ← hostRange (others.headD [])
        some ⟨textOrNone ip, host, ports, protocol⟩
      else none

/-- What a text publishes. -/
def shortPublication (value : String) : Option Publication :=
  match value.toList.splitOn '/' with
  | [body] => bodyPublication body "tcp"
  | [body, protocol] => (protocolOf protocol).bind (bodyPublication body)
  | _ => none

example : shortPublication "[::1]:8000:80/UDP" =
    some ⟨some "[::1]", some (8000, 8000), (80, 80), "udp"⟩ := by decide
example : shortPublication "3000-3005" = some ⟨none, none, (3000, 3005), "tcp"⟩ := by decide

section Texts

variable {text container body : List Char} {value : String} {publication : Publication}
  {entry : ShortEntry} {port n : ℕ}

theorem portNumber_eq_some (h : portNumber text = some n) :
    text ≠ [] ∧ (∀ c ∈ text, isDecimal c = true) ∧ n ≤ 65535 ∧
      ∃ number, readInt text = some number ∧ number.toNat = n := by
  rw [portNumber] at h
  split at h
  · rename_i htext
    obtain ⟨hne, hall⟩ := Bool.and_eq_true_iff.mp htext
    obtain ⟨hmap, hle⟩ := Option.filter_eq_some_iff.mp h
    obtain ⟨number, hread, rfl⟩ := Option.map_eq_some_iff.mp hmap
    exact ⟨of_decide_eq_true hne, List.all_eq_true.mp hall, of_decide_eq_true hle, number, hread,
      rfl⟩
  · cases h

theorem isDecimal_toString {c : Char} (h : c ∈ (toString n).toList) : isDecimal c = true := by
  rw [Nat.toString_eq_repr, Nat.toList_repr] at h
  exact isDecimal_of_isDigit (Nat.isDigit_of_mem_toDigits (by decide) (by decide) h)

theorem printable_of_le (h : n ≤ 65535) : Printable n := by
  have hpow : 10 ^ 5 ≤ 10 ^ maxIntDigits := Nat.pow_le_pow_right (by decide) (by decide)
  rw [Printable]
  omega

theorem portNumber_toString (h : n ≤ 65535) : portNumber (toString n).toList = some n := by
  have hne : (toString n).toList ≠ [] := by simp
  have hall : (toString n).toList.all isDecimal = true :=
    List.all_eq_true.mpr fun c hc => isDecimal_toString hc
  rw [portNumber, hall, decide_eq_true hne, Bool.and_true, if_pos rfl,
    readInt_toString (printable_of_le h)]
  simp [h]

theorem splitOn_of_not_mem {sep : Char} (h : sep ∉ text) : text.splitOn sep = [text] := by
  have hsplit : ([sep].intercalate [text]).splitOn sep = [text] :=
    List.splitOn_intercalate sep (by simpa using h) (by simp)
  rwa [List.intercalate_singleton] at hsplit

theorem portRange_toString (h : n ≤ 65535) : portRange (toString n).toList = some (n, n) := by
  have hdash : '-' ∉ (toString n).toList := not_mem_digits (by decide) n
  rw [portRange, splitOn_of_not_mem hdash]
  simp only [portNumber_toString h, Option.map_some]

/-- A range is made of digits and dashes, and ends with a digit. -/
theorem chars_of_portRange {range : ℕ × ℕ} (h : portRange text = some range) :
    text ≠ [] ∧ (∀ c ∈ text, isDecimal c = true ∨ c = '-') ∧
      ∀ c ∈ text.getLast?, isDecimal c = true := by
  have hjoin : ['-'].intercalate (text.splitOn '-') = text := List.intercalate_splitOn '-'
  rw [portRange] at h
  split at h
  · rename_i port hsplit
    obtain ⟨number, hnumber, -⟩ := Option.map_eq_some_iff.mp h
    obtain ⟨hne, hdecimal, -⟩ := portNumber_eq_some hnumber
    rw [hsplit, List.intercalate_singleton] at hjoin
    rw [← hjoin]
    exact ⟨hne, fun c hc => .inl (hdecimal c hc),
      fun c hc => hdecimal c (List.mem_of_mem_getLast? hc)⟩
  · rename_i first last hsplit
    obtain ⟨low, hlow, hrest⟩ := Option.bind_eq_some_iff.mp h
    obtain ⟨high, hhigh, -⟩ := Option.bind_eq_some_iff.mp hrest
    obtain ⟨-, hfirst, -⟩ := portNumber_eq_some hlow
    obtain ⟨hne, hlast, -⟩ := portNumber_eq_some hhigh
    rw [hsplit, List.intercalate_cons_cons, List.intercalate_singleton] at hjoin
    rw [← hjoin]
    refine ⟨by simp, fun c hc => ?_, fun c hc => ?_⟩
    · simp only [List.mem_append, List.mem_singleton] at hc
      rcases hc with (hc | hc) | hc
      · exact .inl (hfirst c hc)
      · exact .inr hc
      · exact .inl (hlast c hc)
    · rw [List.getLast?_append_of_ne_nil _ hne] at hc
      exact hlast c (List.mem_of_mem_getLast? hc)
  · cases h

/-- The characters of a text without its protocol. -/
def isBodyChar (c : Char) : Bool := isAddressChar c || c = '-'

theorem isBodyChar_of_range {c : Char} (h : isDecimal c = true ∨ c = '-') : isBodyChar c = true := by
  rcases h with h | rfl
  · rw [isBodyChar, isAddressChar, h]
    rfl
  · rfl

theorem intercalate_concat {sep part : List Char} {parts : List (List Char)} (h : parts ≠ []) :
    sep.intercalate (parts ++ [part]) = sep.intercalate parts ++ (sep ++ part) := by
  induction parts with
  | nil => exact absurd rfl h
  | cons first rest ih =>
      cases rest with
      | nil => simp [List.intercalate_cons_cons]
      | cons next rest =>
          rw [List.cons_append, List.cons_append, List.intercalate_cons_cons, ← List.cons_append,
            ih (List.cons_ne_nil _ _), List.intercalate_cons_cons]
          simp

/-- What a body is made of, and how it ends. -/
theorem chars_of_body {protocol : String} (h : bodyPublication body protocol = some publication) :
    body ≠ [] ∧ (∀ c ∈ body, isBodyChar c = true) ∧ ∀ c ∈ body.getLast?, isDecimal c = true := by
  have hjoin : [':'].intercalate (body.splitOn ':') = body := List.intercalate_splitOn ':'
  rw [bodyPublication] at h
  split at h
  · cases h
  · rename_i container others hparts
    dsimp only at h
    split at h
    · rename_i haddress
      obtain ⟨ports, hports, hrest⟩ := Option.bind_eq_some_iff.mp h
      obtain ⟨host, hhost, -⟩ := Option.bind_eq_some_iff.mp hrest
      obtain ⟨hne, hchars, hlast⟩ := chars_of_portRange hports
      have hsplit : body.splitOn ':' = others.reverse ++ [container] := by
        rw [← List.reverse_reverse (body.splitOn ':'), hparts, List.reverse_cons]
      have hhostChars : ∀ c ∈ others.headD [], isBodyChar c = true := by
        intro c hc
        rw [hostRange] at hhost
        split at hhost
        · rename_i hempty
          rw [hempty] at hc
          cases hc
        · obtain ⟨range, hrange, -⟩ := Option.map_eq_some_iff.mp hhost
          exact isBodyChar_of_range ((chars_of_portRange hrange).2.1 c hc)
      have hipChars : ∀ c ∈ [':'].intercalate others.tail.reverse, isBodyChar c = true := by
        intro c hc
        rw [isBodyChar, List.all_eq_true.mp haddress c hc]
        rfl
      rw [← hjoin, hsplit]
      cases others with
      | nil =>
          simp only [List.reverse_nil, List.nil_append, List.intercalate_singleton]
          exact ⟨hne, fun c hc => isBodyChar_of_range (hchars c hc), hlast⟩
      | cons host ips =>
          rw [List.reverse_cons, intercalate_concat (by simp)]
          have hfront : ∀ c ∈ [':'].intercalate (ips.reverse ++ [host]), isBodyChar c = true := by
            cases ips with
            | nil => simpa using hhostChars
            | cons ip ips =>
                rw [intercalate_concat (by simp)]
                intro c hc
                rcases List.mem_append.mp hc with hc | hc
                · exact hipChars c hc
                · rcases List.mem_cons.mp hc with rfl | hc
                  · rfl
                  · exact hhostChars c hc
          refine ⟨by simp, fun c hc => ?_, fun c hc => ?_⟩
          · rcases List.mem_append.mp hc with hc | hc
            · exact hfront c hc
            · rcases List.mem_cons.mp hc with rfl | hc
              · rfl
              · exact isBodyChar_of_range (hchars c hc)
          · rw [← List.append_assoc, List.getLast?_append_of_ne_nil _ hne] at hc
            exact hlast c hc
    · cases h
/-- A protocol ends with a letter that is neither a digit nor a blank. -/
theorem last_of_protocolOf {protocol : String} (h : protocolOf text = some protocol) :
    text.map Char.toLower = protocol.toList ∧ (protocol = "tcp" ∨ protocol = "udp" ∨ protocol = "sctp") ∧
      ∃ front last, text = front ++ [last] ∧ (last = 'p' ∨ last = 'P') := by
  rw [protocolOf] at h
  have hmap : text.map Char.toLower = protocol.toList := by simpa using List.find?_some h
  have hmem := List.mem_of_find?_eq_some h
  have hprotocol : protocol = "tcp" ∨ protocol = "udp" ∨ protocol = "sctp" := by simpa using hmem
  refine ⟨hmap, hprotocol, ?_⟩
  have hne : text ≠ [] := by
    rintro rfl
    rcases hprotocol with rfl | rfl | rfl <;> cases hmap
  refine ⟨text.dropLast, text.getLast hne, (List.dropLast_append_getLast hne).symm, ?_⟩
  have hlast : (text.getLast hne).toLower = 'p' := by
    have hlower : (text.map Char.toLower).getLast? = some 'p' := by
      rw [hmap]
      rcases hprotocol with rfl | rfl | rfl <;> rfl
    rw [List.getLast?_map, List.getLast?_eq_some_getLast hne, Option.map_some] at hlower
    exact Option.some.inj hlower
  generalize text.getLast hne = last at hlast
  rw [Char.toLower] at hlast
  split at hlast
  · have hval : last.val + 32 = 112 := congrArg Char.val hlast
    exact .inr (Char.ext (by grind))
  · exact .inl hlast

/-- How a text that publishes something is put together. -/
theorem parts_of_shortPublication (h : shortPublication value = some publication) :
    ∃ body protocol, bodyPublication body protocol = some publication ∧ '/' ∉ body ∧
      (value.toList = body ∧ protocol = "tcp" ∨
        ∃ suffix, value.toList = body ++ '/' :: suffix ∧ '/' ∉ suffix ∧
          protocolOf suffix = some protocol) := by
  have hjoin : ['/'].intercalate (value.toList.splitOn '/') = value.toList :=
    List.intercalate_splitOn '/'
  have hfree : ∀ part ∈ value.toList.splitOn '/', '/' ∉ part := fun part hpart =>
    not_mem_of_mem_splitOn hpart
  rw [shortPublication] at h
  split at h
  · rename_i body hsplit
    rw [hsplit] at hjoin hfree
    exact ⟨body, "tcp", h, hfree body (by simp), .inl ⟨by simpa using hjoin.symm, rfl⟩⟩
  · rename_i body suffix hsplit
    rw [hsplit] at hjoin hfree
    obtain ⟨protocol, hprotocol, hbody⟩ := Option.bind_eq_some_iff.mp h
    refine ⟨body, protocol, hbody, hfree body (by simp), .inr ⟨suffix, ?_, hfree suffix (by simp),
      hprotocol⟩⟩
    rw [← hjoin, List.intercalate_cons_cons, List.intercalate_singleton]
    simp
  · cases h

theorem not_isSpace_of_isBodyChar {c : Char} (h : isBodyChar c = true) : isSpace c = false := by
  rw [isBodyChar, isAddressChar] at h
  simp only [Bool.or_eq_true, decide_eq_true_eq, List.contains_iff_mem] at h
  rcases h with (h | h) | rfl
  · exact not_isSpace_of_isDecimal h
  · have hall : ("abcdefABCDEF.:[]".toList.all fun c => !isSpace c) = true := by decide
    simpa using List.all_eq_true.mp hall c h
  · rfl

theorem container_of_entryOf {ip host : List Char} {protocol : String}
    (h : parseShortEntry.entryOf ip host container protocol = .ok (some entry)) :
    isDigitText container = true ∧ readContainer container = .ok entry.container := by
  rw [parseShortEntry.entryOf] at h
  split at h
  · cases h
  · rename_i hdigits
    refine ⟨by simp_all, ?_⟩
    obtain ⟨number, hnumber, hrest⟩ := Effects.bind_eq_ok_iff.mp h
    rw [hnumber]
    cases hrest
    rfl

/-- A text that publishes something is read without blanks around it. -/
theorem stripChars_of_publication (h : shortPublication value = some publication) :
    stripChars value.toList = value.toList := by
  obtain ⟨body, protocol, hbody, -, hvalue⟩ := parts_of_shortPublication h
  obtain ⟨hne, hchars, hlast⟩ := chars_of_body hbody
  have hblank : ∀ c, isBodyChar c = true → isSpace c = false := fun c => not_isSpace_of_isBodyChar
  rcases hvalue with ⟨hvalue, -⟩ | ⟨suffix, hvalue, -, hprotocol⟩
  · rw [hvalue]
    exact stripChars_eq_self (fun c hc => hblank c (hchars c (List.mem_of_mem_head? hc)))
      fun c hc => not_isSpace_of_isDecimal (hlast c hc)
  · obtain ⟨-, -, front, last, rfl, hend⟩ := last_of_protocolOf hprotocol
    rw [hvalue]
    refine stripChars_eq_self (fun c hc => ?_) fun c hc => ?_
    · rw [List.head?_append_of_ne_nil _ hne] at hc
      exact hblank c (hchars c (List.mem_of_mem_head? hc))
    · rw [← List.cons_append, ← List.append_assoc, List.getLast?_append_of_ne_nil _ (by simp)] at hc
      simp only [List.getLast?_singleton, Option.mem_some_iff] at hc
      rcases hend with rfl | rfl <;> subst hc <;> decide

/-- A body is read by the editor as what it publishes, unless the editor cannot read it. -/
theorem fields_of_body {protocol : String} (h : bodyPublication body protocol = some publication)
    {ip host container : List Char} (hip : body.splitOn ':' = [container] ∧ ip = [] ∨
      body.splitOn ':' = [host, container] ∧ ip = [] ∨ body.splitOn ':' = [ip, host, container])
    (hentry : parseShortEntry.entryOf ip host container protocol = .ok (some entry)) :
    publication.ip = entry.ip ∧ publication.container = (entry.container, entry.container) ∧
      publication.protocol = entry.protocol ∧ entry.container ≤ 65535 ∧
      ∀ ip ∈ entry.ip, ip.toList.all isAddressChar = true := by
  obtain ⟨hentryIp, hentryProtocol, -⟩ := entryOf_eq_some hentry
  obtain ⟨hdigits, hread⟩ := container_of_entryOf hentry
  obtain ⟨others, hreverse, hothers⟩ : ∃ others, (body.splitOn ':').reverse = container :: others ∧
      [':'].intercalate others.tail.reverse = ip := by
    rcases hip with ⟨hsplit, rfl⟩ | ⟨hsplit, rfl⟩ | hsplit
    · exact ⟨[], by rw [hsplit]; rfl, rfl⟩
    · exact ⟨[host], by rw [hsplit]; rfl, rfl⟩
    · exact ⟨[host, ip], by rw [hsplit]; rfl, by simp⟩
  rw [bodyPublication, hreverse] at h
  simp only [hothers] at h
  split at h
  · rename_i haddress
    obtain ⟨ports, hports, hrest⟩ := Option.bind_eq_some_iff.mp h
    obtain ⟨range, -, hpublication⟩ := Option.bind_eq_some_iff.mp hrest
    cases hpublication
    -- Digits have no dash, so the container is one port.
    have hdash : '-' ∉ container := fun hmem => by
      have hdash := List.all_eq_true.mp (Bool.and_eq_true_iff.mp hdigits).2 _ hmem
      revert hdash
      decide
    rw [portRange, splitOn_of_not_mem hdash] at hports
    obtain ⟨port, hport, rfl⟩ := Option.map_eq_some_iff.mp hports
    obtain ⟨-, -, hle, number, hnumber, rfl⟩ := portNumber_eq_some hport
    rw [readContainer, hnumber] at hread
    have hcontainer : number.toNat = entry.container := by simpa [pure, Except.pure] using hread
    refine ⟨hentryIp.symm, by rw [hcontainer], hentryProtocol.symm, hcontainer ▸ hle, ?_⟩
    intro text htext
    rw [hentryIp, textOrNone] at htext
    split at htext
    · cases htext
    · cases htext
      rwa [String.toList_ofList]
  · cases h

/-- A text without a protocol that the editor reads ends with a digit. -/
theorem last_of_parse (hstrip : stripChars value.toList = value.toList)
    (hsuffix : protocolSuffix value.toList = none) (h : parseShortEntry value = .ok (some entry)) :
    ∀ c ∈ value.toList.getLast?, isDigitChar c = true := by
  have hjoin : [':'].intercalate (value.toList.splitOn ':') = value.toList :=
    List.intercalate_splitOn ':'
  obtain ⟨container, front, hparts, hdigits⟩ : ∃ container front,
      value.toList = front ++ container ∧ isDigitText container = true := by
    rw [parseShortEntry] at h
    simp only [hstrip, hsuffix, Option.getD_none] at h
    split at h
    · rename_i container hsplit
      rw [hsplit, List.intercalate_singleton] at hjoin
      exact ⟨container, [], hjoin.symm, (container_of_entryOf h).1⟩
    · rename_i host container hsplit
      rw [hsplit, List.intercalate_cons_cons, List.intercalate_singleton] at hjoin
      exact ⟨container, _, hjoin.symm, (container_of_entryOf h).1⟩
    · rename_i ip host container hsplit
      rw [hsplit, List.intercalate_cons_cons, List.intercalate_cons_cons,
        List.intercalate_singleton, ← List.append_assoc] at hjoin
      exact ⟨container, _, hjoin.symm, (container_of_entryOf h).1⟩
    · cases h
  obtain ⟨hne, hall⟩ := Bool.and_eq_true_iff.mp hdigits
  intro c hc
  rw [hparts, List.getLast?_append_of_ne_nil _ (by simpa using hne)] at hc
  exact List.all_eq_true.mp hall c (List.mem_of_mem_getLast? hc)

/-- What the editor reads of a text is what the text publishes. -/
theorem fields_of_parse (h : shortPublication value = some publication)
    (hparse : parseShortEntry value = .ok (some entry)) :
    publication.ip = entry.ip ∧ publication.container = (entry.container, entry.container) ∧
      publication.protocol = entry.protocol ∧ entry.container ≤ 65535 ∧
      ∀ ip ∈ entry.ip, ip.toList.all isAddressChar = true := by
  have hstrip := stripChars_of_publication h
  obtain ⟨body, protocol, hbody, hslash, hvalue⟩ := parts_of_shortPublication h
  have hread : (protocolSuffix value.toList).getD (value.toList, "tcp") = (body, protocol) := by
    rcases hvalue with ⟨hvalue, rfl⟩ | ⟨suffix, hvalue, hfree, hprotocol⟩
    · have hlast : ∀ c ∈ body.getLast?, isDigitChar c = true := fun c hc =>
        isDigitChar_of_isDecimal ((chars_of_body hbody).2.2 c hc)
      rw [hvalue, protocolSuffix_of_digit hlast]
      rfl
    · obtain ⟨hlower, -, front, last, hsuffix, hend⟩ := last_of_protocolOf hprotocol
      cases hfound : protocolSuffix value.toList with
      | none =>
          have hdigit := last_of_parse hstrip hfound hparse last (by
            rw [hvalue, hsuffix, ← List.cons_append, ← List.append_assoc]
            exact List.getLast?_concat)
          rcases hend with rfl | rfl <;> cases hdigit
      | some result =>
          obtain ⟨before, known⟩ := result
          obtain ⟨hsame, -, -, hknown⟩ := protocolSuffix_eq_some hfound
          rw [hvalue] at hsame
          have hknownFree : '/' ∉ known.toList := by rcases hknown with rfl | rfl <;> decide
          rw [String.toList_append] at hsame
          obtain ⟨rfl, -, rfl⟩ := (List.append_cons_inj_of_notMem hslash hfree).mp hsame
          have hsame : protocolOf known.toList = some known := by
            rcases hknown with rfl | rfl <;> decide
          have hprotocol : protocolOf known.toList = some protocol := hprotocol
          rw [hsame, Option.some_inj] at hprotocol
          rw [hprotocol]
          rfl
  rw [parseShortEntry] at hparse
  simp only [hstrip, hread] at hparse
  split at hparse
  · rename_i container hsplit
    exact fields_of_body hbody (.inl ⟨hsplit, rfl⟩) hparse
  · rename_i host container hsplit
    exact fields_of_body hbody (.inr (.inl ⟨hsplit, rfl⟩)) hparse
  · rename_i ip host container hsplit
    exact fields_of_body hbody (.inr (.inr hsplit)) hparse
  · cases hparse

theorem bodyPublication_parts {ip : Option String} {protocol : String}
    (hsplit : body.splitOn ':' = shortParts ip (toString port) (toString n))
    (hport : port ≤ 65535) (hn : n ≤ 65535) (hne : ∀ text ∈ ip, text.toList ≠ [])
    (hip : ∀ text ∈ ip, text.toList.all isAddressChar = true) :
    bodyPublication body protocol = some ⟨ip, some (port, port), (n, n), protocol⟩ := by
  have hhost : hostRange (toString port).toList = some (some (port, port)) := by
    rw [hostRange, if_neg (by simp), portRange_toString hport]
    rfl
  have hjoin : [':'].intercalate (ip.toList.map String.toList) = ip.elim [] String.toList := by
    cases ip <;> simp
  have haddress : (ip.elim [] String.toList).all isAddressChar = true := by
    cases ip with
    | none => rfl
    | some text => exact hip text rfl
  have htext : textOrNone (ip.elim [] String.toList) = ip := by
    cases ip with
    | none => rfl
    | some text => simp [textOrNone, hne text rfl]
  rw [bodyPublication, hsplit, shortParts]
  simp only [List.reverse_append, List.reverse_cons, List.reverse_nil, List.nil_append,
    List.cons_append, List.tail_cons, List.reverse_reverse, List.headD_cons, hjoin, haddress,
    if_true, portRange_toString hn, hhost, htext]
  rfl

/-- What the editor writes publishes the host port, and the rest as it was read. -/
theorem shortPublication_shortText {explicit : Bool} (hentry : entry.WellFormed explicit)
    (hport : port ≤ 65535) (hcontainer : entry.container ≤ 65535)
    (hip : ∀ ip ∈ entry.ip, ip.toList.all isAddressChar = true) :
    shortPublication (shortText entry.ip (toString port) (toString entry.container)
        (suffixText explicit entry.protocol)) =
      some ⟨entry.ip, some (port, port), (entry.container, entry.container), entry.protocol⟩ := by
  obtain ⟨-, -, -, hsplit⟩ := body_facts hentry port
  have htext := toList_shortText entry.ip (toString port) (toString entry.container)
    (suffixText explicit entry.protocol)
  generalize hbody : [':'].intercalate
    (shortParts entry.ip (toString port) (toString entry.container)) = body at hsplit htext
  have hpublication (protocol : String) : bodyPublication body protocol = some
      ⟨entry.ip, some (port, port), (entry.container, entry.container), protocol⟩ :=
    bodyPublication_parts hsplit hport hcontainer hentry.ip_ne_nil hip
  have hslash : '/' ∉ body := by
    intro hmem
    have hchar := (chars_of_body (hpublication "tcp")).2.1 _ hmem
    revert hchar
    decide
  rw [shortPublication, htext]
  cases explicit with
  | false =>
      have hprotocol : entry.protocol = "tcp" := hentry.protocol
      rw [suffixText, if_neg (by decide), String.toList_empty, List.append_nil,
        splitOn_of_not_mem hslash, hprotocol]
      exact hpublication "tcp"
  | true =>
      have hprotocol : entry.protocol = "tcp" ∨ entry.protocol = "udp" := hentry.protocol
      have hfree : '/' ∉ entry.protocol.toList := by
        rcases hprotocol with h | h <;> rw [h] <;> decide
      have hparts : body ++ (suffixText true entry.protocol).toList =
          ['/'].intercalate [body, entry.protocol.toList] := by
        simp [suffixText, List.intercalate_cons_cons]
      have hknown : protocolOf entry.protocol.toList = some entry.protocol := by
        rcases hprotocol with h | h <;> rw [h] <;> decide
      rw [hparts, List.splitOn_intercalate '/' (by simp [hslash, hfree]) (by simp)]
      simp only [hknown, Option.bind_some]
      exact hpublication entry.protocol

end Texts

/-! ## Entries -/

section Entries

variable {R : Type}

/-- A port, or a range of ports, as a field. -/
def fieldRange : Item R Scalar → Option (ℕ × ℕ)
  | .scalar (.int number) =>
      if 0 ≤ number ∧ number ≤ 65535 then some (number.toNat, number.toNat) else none
  | .scalar (.str value) => portRange value.toList
  | _ => none

/-- A field that may be left out. -/
def optionalField {α : Type} (read : Item R Scalar → Option α) :
    Option (Item R Scalar) → Option (Option α)
  | none => some none
  | some value => (read value).map some

/-- A field that is a text. -/
def textField : Item R Scalar → Option String
  | .scalar (.str value) => some value
  | _ => none

/-- What a mapping publishes. -/
def longPublication (heap : Heap R Scalar) (object : R) : Option Publication := do
  let container ← ((getItem heap object "target").bind fieldRange).filter fun range => range.1 = range.2
  let host ← optionalField fieldRange (getItem heap object "published")
  let protocol ← optionalField (fun value => (textField value).bind fun text =>
    protocolOf text.toList) (getItem heap object "protocol")
  let ip ← optionalField textField (getItem heap object "host_ip")
  some ⟨ip, host, container, protocol.getD "tcp"⟩

/-- What an entry publishes, if it is valid. -/
def publication (heap : Heap R Scalar) : Item R Scalar → Option Publication
  | .scalar (.str value) => shortPublication value
  | .scalar value => (fieldRange (.scalar value : Item R Scalar)).map fun range =>
      ⟨none, none, range, "tcp"⟩
  | .ref object => longPublication heap object

variable {spelling : Spelling R} {heap : Heap R Scalar} {entry : Item R Scalar} {target : ℤ}
  {protocol : String}

theorem textField_eq_some {field : Item R Scalar} {value : String}
    (h : textField field = some value) : field = textItem value := by
  rw [textField.eq_def] at h
  split at h
  · cases h
    rfl
  · cases h

/-- An entry that has a port and a protocol is a text or a mapping. -/
theorem text_or_dict_of_entry
    (h : entryContainerAndProtocol spelling heap entry = .ok (some (target, protocol))) :
    (∃ value short, entry = textItem value ∧ parseShortEntry value = .ok (some short) ∧
        target = short.container ∧ protocol = short.protocol) ∨
      ∃ object entries, entry = .ref object ∧ heap object = .dict entries ∧
        asInt (getItem heap object "target") = some target ∧
        str spelling heap ((getItem heap object "protocol").getD (textItem "tcp")) = .ok protocol := by
  cases entry with
  | scalar value =>
      cases value with
      | str value =>
          obtain ⟨parsed, hparsed, hrest⟩ := Effects.bind_eq_ok_iff.mp h
          cases parsed with
          | none => cases hrest
          | some short =>
              cases hrest
              exact .inl ⟨value, short, rfl, hparsed, rfl, rfl⟩
      | none => cases h
      | bool value => cases h
      | int value => cases h
      | other typeName value => cases h
  | ref object =>
      rw [entryContainerAndProtocol] at h
      split at h
      · cases h
      · rename_i entries hentries
        split at h
        · cases h
        · rename_i number hnumber
          obtain ⟨printed, hprinted, hrest⟩ := Effects.bind_eq_ok_iff.mp h
          cases hrest
          exact .inr ⟨object, entries, rfl, hentries, hnumber, hprinted⟩

/-- What the editor compares with a binding is what the entry publishes. -/
theorem fields_of_entry {publication : Publication} {port : ℕ}
    (hprotocol : protocol = "tcp" ∨ protocol = "udp")
    (h : entryContainerAndProtocol spelling heap entry = .ok (some ((port : ℤ), protocol)))
    (hpublication : Compose.publication heap entry = some publication) :
    publication.container = (port, port) ∧ publication.protocol = protocol := by
  obtain ⟨value, short, rfl, hparse, htarget, rfl⟩ | ⟨object, entries, rfl, hnode, htarget, hstr⟩ :=
    text_or_dict_of_entry h
  · obtain ⟨-, hcontainer, hsame, -⟩ := fields_of_parse hpublication hparse
    have hport : port = short.container := by exact_mod_cast htarget
    exact ⟨by rw [hcontainer, hport], hsame⟩
  · simp only [Compose.publication, longPublication, Option.bind_eq_bind,
      Option.bind_eq_some_iff, Option.filter_eq_some_iff] at hpublication
    obtain ⟨container, ⟨⟨value, hvalue, hrange⟩, -⟩, host, -, known, hknown, ip, -, hmade⟩ :=
      hpublication
    cases hmade
    constructor
    · rw [hvalue] at htarget
      cases value with
      | ref object => cases htarget
      | scalar value =>
          cases value with
          | int number =>
              cases htarget
              rw [fieldRange] at hrange
              split at hrange
              · cases hrange
                rfl
              · cases hrange
          | bool flag => cases hrange
          | none => cases htarget
          | str value => cases htarget
          | other typeName value => cases htarget
    · cases hfield : getItem heap object "protocol" with
      | none =>
          rw [hfield] at hknown hstr
          cases hknown
          cases hstr
          rfl
      | some value =>
          rw [hfield] at hknown hstr
          obtain ⟨found, hfound, rfl⟩ := Option.map_eq_some_iff.mp hknown
          obtain ⟨written, hwritten, hread⟩ := Option.bind_eq_some_iff.mp hfound
          obtain rfl := textField_eq_some hwritten
          cases hstr
          have hsame : protocolOf written.toList = some written := by
            rcases hprotocol with h | h
            all_goals
              have hwritten : written = _ := h
              rw [hwritten]
              decide
          rw [hsame] at hread
          cases hread
          rfl

/-- A list publishes nothing. -/
theorem publication_of_list {object : R} {items : List (Item R Scalar)}
    (h : heap object = .list items) : publication heap (.ref object) = none := by
  simp [publication, longPublication, getItem, h, Node.child]

variable {after : Heap R Scalar}

/-- What an entry publishes depends on its own object. -/
theorem publication_eq (h : ∀ object, entry = .ref object → after object = heap object) :
    publication after entry = publication heap entry := by
  cases entry with
  | scalar value => cases value <;> rfl
  | ref object => simp only [publication, longPublication, getItem, h object rfl]

theorem protocol_of_longPublication {object : R} {publication : Publication}
    (h : longPublication heap object = some publication) :
    getItem heap object "protocol" = none ∨
      ∃ value, getItem heap object "protocol" = some (textItem value) := by
  simp only [longPublication, Option.bind_eq_bind, Option.bind_eq_some_iff] at h
  obtain ⟨-, -, -, -, known, hknown, -⟩ := h
  cases hfield : getItem heap object "protocol" with
  | none => exact .inl rfl
  | some value =>
      rw [hfield] at hknown
      obtain ⟨found, hfound, -⟩ := Option.map_eq_some_iff.mp hknown
      obtain ⟨written, hwritten, -⟩ := Option.bind_eq_some_iff.mp hfound
      exact .inr ⟨written, congrArg some (textField_eq_some hwritten)⟩

/-- What the editor reads of a valid mapping depends on two of its fields. -/
theorem entry_eq_of_fields {object : R} {entries entries' : List (Scalar × Item R Scalar)}
    (hvalid : (longPublication heap object).isSome = true) (hnode : heap object = .dict entries)
    (hafter : after object = .dict entries')
    (htarget : getItem after object "target" = getItem heap object "target")
    (hprotocol : getItem after object "protocol" = getItem heap object "protocol") :
    entryContainerAndProtocol spelling after (.ref object) =
      entryContainerAndProtocol spelling heap (.ref object) := by
  obtain ⟨publication, hpublication⟩ := Option.isSome_iff_exists.mp hvalid
  simp only [entryContainerAndProtocol, hnode, hafter, htarget, hprotocol]
  rcases protocol_of_longPublication hpublication with h | ⟨value, h⟩ <;> rw [h] <;> rfl

/-- What the editor reads of a valid entry depends on its own object. -/
theorem entry_eq (hvalid : (publication heap entry).isSome = true)
    (h : ∀ object, entry = .ref object → after object = heap object) :
    entryContainerAndProtocol spelling after entry =
      entryContainerAndProtocol spelling heap entry := by
  cases entry with
  | scalar value => cases value <;> rfl
  | ref object =>
      cases hnode : heap object with
      | list items => rw [publication_of_list hnode] at hvalid; cases hvalid
      | dict entries =>
          refine entry_eq_of_fields hvalid hnode (h object rfl ▸ hnode) ?_ ?_ <;>
            rw [getItem, getItem, h object rfl]

end Entries

end Agent.Compose
