import ChannelFeed.Site.Console
import Mathlib.Data.List.Induction
import Mathlib.Data.Nat.Digits.Defs

namespace ChannelFeed.BrokerEndpoint

/-- What is left of an address without its scheme, if it begins with one. -/
inductive Bare (url : String) : List Char → Prop where
  | mqtt {rest : List Char} (scheme : url.toList = "mqtt://".toList ++ rest) : Bare url rest
  | tcp {rest : List Char} (scheme : url.toList = "tcp://".toList ++ rest) : Bare url rest
  | schemeless (notMqtt : ¬ "mqtt://".toList <+: url.toList) (notTcp : ¬ "tcp://".toList <+: url.toList) :
    Bare url url.toList

/-- Decimal digits for a number of 16 bits. -/
def IsPort (digits : List Char) (port : Nat) : Prop :=
  digits ≠ [] ∧ (∀ c ∈ digits, '0' ≤ c ∧ c ≤ '9') ∧
    Nat.ofDigits 10 (digits.reverse.map (fun c => c.toNat - '0'.toNat)) = port ∧ port ≤ 65535

/-- An address that names a host with or without a port. -/
inductive Names (url : String) : String → Nat → Prop where
  | alone {host : List Char} (bare : Bare url host) (there : host ≠ []) (portless : ':' ∉ host) :
    Names url (String.ofList host) 1883
  | both {host digits : List Char} {port : Nat} (bare : Bare url (host ++ ':' :: digits))
      (last : ':' ∉ digits) (there : host ≠ []) (isPort : IsPort digits port) :
    Names url (String.ofList host) port

/-- An address that is understood although it names no host or its port has a sign. -/
inductive Lax (url : String) : String → Nat → Prop where
  | hostless {digits : List Char} {port : Nat} (bare : Bare url (':' :: digits))
      (last : ':' ∉ digits) (isPort : IsPort digits port) : Lax url "" port
  | signed {host digits : List Char} {port : Nat} (bare : Bare url (host ++ ':' :: '+' :: digits))
      (last : ':' ∉ digits) (isPort : IsPort digits port) : Lax url (String.ofList host) port

variable {url : String} {rest rest' text digits : List Char} {port : Nat}

/-- An address without its scheme, as it is read. -/
def bareText (url : String) : List Char :=
  (afterStart "mqtt://".toList url.toList <|> afterStart "tcp://".toList url.toList).getD url.toList

theorem bare_bareText (url : String) : Bare url (bareText url) := by
  unfold bareText
  cases hmqtt : afterStart "mqtt://".toList url.toList with
  | some rest => exact .mqtt (afterStart_eq_some_iff.mp hmqtt)
  | none =>
    cases htcp : afterStart "tcp://".toList url.toList with
    | some rest => exact .tcp (afterStart_eq_some_iff.mp htcp)
    | none => exact .schemeless (afterStart_eq_none_iff.mp hmqtt) (afterStart_eq_none_iff.mp htcp)

theorem Bare.eq (h : Bare url rest) : rest = bareText url := by
  unfold bareText
  cases h with
  | mqtt scheme =>
    rw [afterStart_eq_some_iff.mpr scheme]
    rfl
  | tcp scheme =>
    -- the schemes differ in their first letter
    have hmqtt : afterStart "mqtt://".toList url.toList = none := by
      rw [scheme]
      rfl
    rw [hmqtt, afterStart_eq_some_iff.mpr scheme]
    rfl
  | schemeless notMqtt notTcp =>
    rw [afterStart_eq_none_iff.mpr notMqtt, afterStart_eq_none_iff.mpr notTcp]
    rfl

theorem foldl_digits (digits : List Char) :
    digits.foldl (fun port c => 10 * port + (c.toNat - '0'.toNat)) 0 =
      Nat.ofDigits 10 (digits.reverse.map (fun c => c.toNat - '0'.toNat)) := by
  induction digits using List.reverseRecOn with
  | nil => rfl
  | append_singleton digits c ih =>
    rw [List.foldl_append, ih, List.reverse_append, List.map_append, List.reverse_singleton,
      List.map_singleton, List.singleton_append, Nat.ofDigits_cons]
    exact Nat.add_comm _ _

def unsigned : List Char → List Char
  | '+' :: digits => digits
  | digits => digits

theorem port?_eq_some : port? text = some port ↔ IsPort (unsigned text) port := by
  have hport : port? text =
      if (unsigned text).isEmpty || (unsigned text).any (fun c => !('0' ≤ c && c ≤ '9')) then none
      else if Nat.ofDigits 10 ((unsigned text).reverse.map (fun c => c.toNat - '0'.toNat)) ≤ 65535 then
        some (Nat.ofDigits 10 ((unsigned text).reverse.map (fun c => c.toNat - '0'.toNat)))
      else none := by
    rw [← foldl_digits]
    rfl
  rw [hport]
  unfold IsPort
  split
  · rename_i hbad
    simp only [reduceCtorEq, false_iff, not_and]
    intro hsome hdigits
    simp only [Bool.or_eq_true, List.isEmpty_iff, List.any_eq_true] at hbad
    obtain hnone | ⟨c, hc, hno⟩ := hbad
    · exact absurd hnone hsome
    · simp [hdigits c hc] at hno
  · rename_i hgood
    simp only [Bool.or_eq_true, List.isEmpty_iff, List.any_eq_true, not_or, not_exists, not_and] at hgood
    obtain ⟨hsome, hall⟩ := hgood
    have hdigits : ∀ c ∈ unsigned text, '0' ≤ c ∧ c ≤ '9' := fun c hc => by simpa using hall c hc
    split
    · rename_i hfits
      rw [Option.some.injEq]
      constructor
      · rintro rfl
        exact ⟨hsome, hdigits, rfl, hfits⟩
      · rintro ⟨_, _, hvalue, _⟩
        exact hvalue
    · rename_i hlarge
      simp only [reduceCtorEq, false_iff, not_and]
      rintro _ _ rfl
      exact hlarge

theorem not_isPort_signed : ¬ IsPort ('+' :: digits) port := by
  rintro ⟨_, hdigits, _⟩
  have hplus := (hdigits '+' List.mem_cons_self).1
  exact absurd hplus (by decide)

theorem IsPort.unsigned_eq (h : IsPort digits port) : unsigned digits = digits := by
  unfold unsigned
  split
  · exact absurd h not_isPort_signed
  · rfl

theorem hostAndPort_eq (url : String) : hostAndPort url =
    if (bareText url).isEmpty then .error (.invalidAddress "empty broker host")
    else match splitLast ':' (bareText url) with
      | none => .ok (String.ofList (bareText url), defaultPort)
      | some (host, text) =>
        match port? text with
        | some port => .ok (String.ofList host, port)
        | none => .error (.invalidAddress ("Invalid port: " ++ String.ofList text)) :=
  rfl

theorem hostAndPort_parted {host : List Char} (bare : Bare url (host ++ ':' :: text))
    (last : ':' ∉ text) : hostAndPort url =
      match port? text with
      | some port => .ok (String.ofList host, port)
      | none => .error (.invalidAddress ("Invalid port: " ++ String.ofList text)) := by
  have hsome : (host ++ ':' :: text).isEmpty = false := by cases host <;> rfl
  rw [hostAndPort_eq, ← bare.eq, hsome, splitLast_append last]
  rfl

theorem hostAndPort_alone {host : List Char} (bare : Bare url host) (there : host ≠ [])
    (portless : ':' ∉ host) : hostAndPort url = .ok (String.ofList host, 1883) := by
  rw [hostAndPort_eq, ← bare.eq, List.isEmpty_eq_false_iff.mpr there,
    splitLast_eq_none_iff.mpr portless]
  rfl

theorem hostAndPort_nothing (bare : Bare url []) :
    hostAndPort url = .error (.invalidAddress "empty broker host") := by
  rw [hostAndPort_eq, ← bare.eq]
  rfl

theorem bare_cases (url : String) : Bare url [] ∨
    (∃ host, Bare url host ∧ host ≠ [] ∧ ':' ∉ host) ∨
      ∃ host text, Bare url (host ++ ':' :: text) ∧ ':' ∉ text := by
  have hbare := bare_bareText url
  cases hsplit : splitLast ':' (bareText url) with
  | some parts =>
    obtain ⟨heq, hlast⟩ := splitLast_eq_some_iff.mp hsplit
    rw [heq] at hbare
    exact .inr (.inr ⟨_, _, hbare, hlast⟩)
  | none =>
    by_cases hnil : bareText url = []
    · rw [hnil] at hbare
      exact .inl hbare
    · exact .inr (.inl ⟨_, hbare, hnil, splitLast_eq_none_iff.mp hsplit⟩)

/-- What a port with a host before it comes to. -/
theorem names_or_lax {host : List Char} (bare : Bare url (host ++ ':' :: text)) (last : ':' ∉ text)
    (isPort : IsPort (unsigned text) port) :
    Names url (String.ofList host) port ∨ Lax url (String.ofList host) port := by
  by_cases hsign : ∃ digits, text = '+' :: digits
  · obtain ⟨digits, rfl⟩ := hsign
    exact .inr (.signed bare (fun hmem => last (List.mem_cons_of_mem _ hmem)) isPort)
  · have hunsigned : unsigned text = text := by
      unfold unsigned
      split
      · exact absurd ⟨_, rfl⟩ hsign
      · rfl
    rw [hunsigned] at isPort
    by_cases hnil : host = []
    · subst hnil
      exact .inr (.hostless bare last isPort)
    · exact .inl (.both bare last hnil isPort)

/-- What is lax has a port, with no host before it or with a sign. -/
theorem Lax.parted {host : String} (h : Lax url host port) :
    ∃ before text, Bare url (before ++ ':' :: text) ∧ ':' ∉ text ∧ host = String.ofList before ∧
      IsPort (unsigned text) port ∧ (before = [] ∨ ∃ digits, text = '+' :: digits) := by
  cases h with
  | @hostless digits port bare last isPort =>
    exact ⟨[], digits, bare, last, rfl, isPort.unsigned_eq.symm ▸ isPort, .inl rfl⟩
  | @signed host digits port bare last isPort =>
    have hlast : ':' ∉ '+' :: digits := List.not_mem_cons_of_ne_of_not_mem (by decide) last
    exact ⟨host, '+' :: digits, bare, hlast, rfl, isPort, .inr ⟨digits, rfl⟩⟩

theorem hostAndPort_eq_ok {host : String} :
    hostAndPort url = .ok (host, port) ↔ Names url host port ∨ Lax url host port := by
  constructor
  · intro h
    rcases bare_cases url with hbare | ⟨rest, hbare, hsome, hcolon⟩ | ⟨rest, text, hbare, hlast⟩
    · rw [hostAndPort_nothing hbare] at h
      cases h
    · rw [hostAndPort_alone hbare hsome hcolon] at h
      cases h
      exact .inl (.alone hbare hsome hcolon)
    · rw [hostAndPort_parted hbare hlast] at h
      cases hport : port? text with
      | some port' =>
        rw [hport] at h
        cases h
        exact names_or_lax hbare hlast (port?_eq_some.mp hport)
      | none =>
        rw [hport] at h
        cases h
  · rintro ((⟨bare, there, portless⟩ | ⟨bare, last, there, isPort⟩) | hlax)
    · exact hostAndPort_alone bare there portless
    · rw [hostAndPort_parted bare last, port?_eq_some.mpr (isPort.unsigned_eq.symm ▸ isPort)]
    · obtain ⟨before, text, bare, last, rfl, isPort, _⟩ := hlax.parted
      rw [hostAndPort_parted bare last, port?_eq_some.mpr isPort]

/-- Why an address is refused: there is nothing, or the port is none, with a sign or without. -/
theorem hostAndPort_eq_error {fault : TransportFault} : hostAndPort url = .error fault ↔
    Bare url [] ∧ fault = .invalidAddress "empty broker host" ∨
      ∃ host text, Bare url (host ++ ':' :: text) ∧ ':' ∉ text ∧
        (∀ port, ¬ IsPort (unsigned text) port) ∧
          fault = .invalidAddress ("Invalid port: " ++ String.ofList text) := by
  constructor
  · intro h
    rcases bare_cases url with hbare | ⟨rest, hbare, hsome, hcolon⟩ | ⟨rest, text, hbare, hlast⟩
    · rw [hostAndPort_nothing hbare] at h
      cases h
      exact .inl ⟨hbare, rfl⟩
    · rw [hostAndPort_alone hbare hsome hcolon] at h
      cases h
    · rw [hostAndPort_parted hbare hlast] at h
      cases hport : port? text with
      | some port' =>
        rw [hport] at h
        cases h
      | none =>
        rw [hport] at h
        cases h
        refine .inr ⟨rest, text, hbare, hlast, fun port hisPort => ?_, rfl⟩
        rw [port?_eq_some.mpr hisPort] at hport
        cases hport
  · rintro (⟨bare, rfl⟩ | ⟨host, text, bare, last, noPort, rfl⟩)
    · exact hostAndPort_nothing bare
    · have hport : port? text = none :=
        Option.eq_none_iff_forall_ne_some.mpr (fun port h => noPort port (port?_eq_some.mp h))
      rw [hostAndPort_parted bare last, hport]

theorem Bare.parts {a a' b b' : List Char} (h : Bare url (a ++ ':' :: b)) (hb : ':' ∉ b)
    (h' : Bare url (a' ++ ':' :: b')) (hb' : ':' ∉ b') : a = a' ∧ b = b' := by
  have hsame : splitLast ':' (a ++ ':' :: b) = splitLast ':' (a' ++ ':' :: b') := by
    rw [h.eq, h'.eq]
  rw [splitLast_append hb, splitLast_append hb'] at hsame
  exact Prod.mk.inj (Option.some.inj hsame)

theorem Bare.not_alone {a b host : List Char} (h : Bare url (a ++ ':' :: b)) (h' : Bare url host) :
    ':' ∈ host := by
  rw [h'.eq, ← h.eq]
  simp

/-- What is understood all the same names no broker. -/
theorem Lax.not_names {host host' : String} {port' : Nat} (h : Lax url host port) :
    ¬ Names url host' port' := by
  intro hnames
  obtain ⟨before, text, bare, last, _, _, hodd⟩ := h.parted
  cases hnames with
  | alone bare' there portless => exact portless (bare.not_alone bare')
  | both bare' last' there isPort =>
    obtain ⟨rfl, rfl⟩ := bare.parts last bare' last'
    rcases hodd with hnil | ⟨digits, rfl⟩
    · exact there hnil
    · exact not_isPort_signed isPort

theorem Names.host_ne {host : String} (h : Names url host port) : host ≠ "" := by
  cases h with
  | alone bare there portless => simpa using there
  | both bare last there isPort => simpa using there

/-- There is no host exactly if the address begins with the colon of a port. -/
theorem host_eq_iff {host : String} (h : Names url host port ∨ Lax url host port) :
    host = "" ↔ ∃ text, Bare url (':' :: text) ∧ ':' ∉ text := by
  constructor
  · intro hnil
    rcases h with hnames | hlax
    · exact absurd hnil hnames.host_ne
    · obtain ⟨before, text, bare, last, rfl, _⟩ := hlax.parted
      have hbefore : before = [] := by simpa using hnil
      rw [hbefore] at bare
      exact ⟨text, bare, last⟩
  · rintro ⟨text, hbare, htext⟩
    have hempty : Bare url ([] ++ ':' :: text) := hbare
    rcases h with (⟨bare, there, portless⟩ | ⟨bare, last, there, isPort⟩) | hlax
    · exact absurd (hempty.not_alone bare) portless
    · exact absurd (hempty.parts htext bare last).1.symm there
    · obtain ⟨before, text', bare, last, rfl, _⟩ := hlax.parted
      rw [← (hempty.parts htext bare last).1]

theorem port_le {host : String} (h : Names url host port ∨ Lax url host port) : port ≤ 65535 := by
  rcases h with (⟨bare, there, portless⟩ | ⟨bare, last, there, isPort⟩) | hlax
  · decide
  · exact isPort.2.2.2
  · obtain ⟨before, text, bare, last, _, isPort, _⟩ := hlax.parted
    exact isPort.2.2.2

theorem ofUrl_eq_ok {root edge : String} {e : BrokerEndpoint} : ofUrl url root edge = .ok e ↔
    (Names url e.host e.port ∨ Lax url e.host e.port) ∧ e.topicRoot = root ∧ e.edge = edge := by
  obtain ⟨host, port, topicRoot, name⟩ := e
  rw [← hostAndPort_eq_ok, ofUrl]
  cases hostAndPort url with
  | ok parts =>
    constructor
    · rintro ⟨⟩
      exact ⟨rfl, rfl, rfl⟩
    · rintro ⟨⟨⟩, rfl, rfl⟩
      rfl
  | error fault => simp

theorem ofUrl_eq_error {root edge : String} {fault : TransportFault} :
    ofUrl url root edge = .error fault ↔ hostAndPort url = .error fault := by
  unfold ofUrl
  cases hostAndPort url <;> simp

theorem connectorFor_broker {c : Config} {root : String} {credentials : Option (String × String)}
    (h : c.access = .broker url root credentials) :
    Edge.connectorFor c = (ofUrl url root c.edge).map (fun _ => .silent) := by
  unfold Edge.connectorFor
  rw [h]
  dsimp only
  cases ofUrl url root c.edge <;> rfl

/-- How an address is understood, and what an edge comes to whose broker it is. -/
structure Understood (url root edge : String) : Prop where
  /-- What names a broker is understood with its host and port, besides only what is lax, ... -/
  built : ∀ e, ofUrl url root edge = .ok e ↔
    (Names url e.host e.port ∨ Lax url e.host e.port) ∧ e.topicRoot = root ∧ e.edge = edge
  /-- ... which names no broker. -/
  apart : ∀ host port host' port', Lax url host port → ¬ Names url host' port'
  ports : ∀ e, ofUrl url root edge = .ok e → e.port ≤ 65535
  hosts : ∀ host port, Names url host port → host ≠ ""
  /-- The host is missing exactly if nothing stands before the colon of the port. -/
  hostless : ∀ e, ofUrl url root edge = .ok e →
    (e.host = "" ↔ ∃ text, Bare url (':' :: text) ∧ ':' ∉ text)
  /-- Everything else is an invalid address, ... -/
  refused : ∀ fault, ofUrl url root edge = .error fault ↔
    Bare url [] ∧ fault = .invalidAddress "empty broker host" ∨
      ∃ host text, Bare url (host ++ ':' :: text) ∧ ':' ∉ text ∧
        (∀ port, ¬ IsPort (unsigned text) port) ∧
          fault = .invalidAddress ("Invalid port: " ++ String.ofList text)
  /-- ... with which no edge is added, and nothing changes. -/
  unadded : ∀ (c : Console) (config : Config) credentials fault,
    config.access = .broker url root credentials → config.edge = edge →
    ofUrl url root edge = .error fault →
    c.act (.addConfigured config) = (c, .fault
      (if c.site.members.contains edge then .edgeExists edge else .transport fault))
  /-- An address that is understood is no reason not to add an edge. -/
  added : ∀ (s : Site) (config : Config) credentials e,
    config.access = .broker url root credentials → config.edge = edge →
    ofUrl url root edge = .ok e → s.addConfigured config = s.add config .silent

theorem understood (url root edge : String) : Understood url root edge where
  built _ := ofUrl_eq_ok
  apart _ _ _ _ h := h.not_names
  ports _ h := port_le (ofUrl_eq_ok.mp h).1
  hosts _ _ h := h.host_ne
  hostless _ h := host_eq_iff (ofUrl_eq_ok.mp h).1
  refused _ := ofUrl_eq_error.trans hostAndPort_eq_error
  unadded c config credentials fault haccess hedge hfault := by
    subst hedge
    have hconnector : Edge.connectorFor config = .error fault := by
      rw [connectorFor_broker haccess, hfault]
      rfl
    rw [Console.act, Site.addConfigured, hconnector]
    split <;> rfl
  added s config credentials e haccess hedge he := by
    subst hedge
    have hconnector : Edge.connectorFor config = .ok .silent := by
      rw [connectorFor_broker haccess, he]
      rfl
    rw [Site.addConfigured, hconnector]
    split
    · rename_i hmember
      rw [Site.add, if_pos hmember]
    · rfl

/-- The scheme is taken off once, the last colon parts and ports have a limit; a missing host and a sign
are passed over. -/
example : (hostAndPort "tcp://mqtt://h:0080", hostAndPort "a:65536", hostAndPort "mqtt://:1883",
    hostAndPort "h:+80") = (.ok ("mqtt://h", 80), .error (.invalidAddress "Invalid port: 65536"),
      .ok ("", 1883), .ok ("h", 80)) := by
  decide +kernel

end ChannelFeed.BrokerEndpoint
