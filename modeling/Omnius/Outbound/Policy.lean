/-
# Admission of a URL, and what the client then connects to

A URL is admitted by `approve`: no credentials, no fragment, a bounded host without trailing dots,
a scheme and port the configuration allows, and every address of the host acceptable.  For a host
NAME the addresses are those a resolver gives at that moment; when the client connects, possibly
much later, its own resolver asks AGAIN and checks the new answer on its own
(`ValidatingResolver.resolve`).  A LITERAL host never goes through a resolver, so for it the check
at admission is the only one, and it is enough: the address is in the URL.

`connections_of_admitted` puts the two together: whatever the two answers are, a connection for an
admitted URL goes to an address the policy allows.

A URL is what the `url` crate says it is.  Its parser is not modelled: replacing the host
(`setHost`) and joining a location (`join`) are any functions, and nothing is assumed of them,
since `approve` looks at the URL again after it changed the host.

Translated from `crates/outbound-http/src/policy.rs` and `lib.rs`.
-/
import Omnius.Outbound.Address
import Mathlib.Data.List.Dedup

namespace Omnius.Outbound

/-! ## 1. Configuration -/

structure OutboundUrlPolicyConfig where
  allowedHttpsPorts : List Nat
  allowDevelopmentLoopbackHttp : Bool
  denyCidrs : List String
  /-- In nanoseconds, as every duration here. -/
  (dnsTimeout maxDnsAnswers : Nat)

def maxUrlBytes : Nat := 8 * 1024

def maxAllowedHttpsPorts : Nat := 16

def maxDnsAnswersBound : Nat := 64

def seconds (n : Nat) : Nat := n * 1000000000

def maxDnsTimeout : Nat := seconds 10

variable (parseIpAddr : String → Option IpAddr)

def OutboundUrlPolicyConfig.validate (config : OutboundUrlPolicyConfig) :
    Except ConfigError Unit :=
  if config.allowedHttpsPorts.isEmpty || config.allowedHttpsPorts.length > maxAllowedHttpsPorts
      || config.allowedHttpsPorts.contains 0 then .error .httpsPorts
  else if config.allowedHttpsPorts.dedup.length ≠ config.allowedHttpsPorts.length then
    .error .httpsPorts
  else if config.dnsTimeout = 0 || config.dnsTimeout > maxDnsTimeout then .error .dnsTimeout
  else if !(1 ≤ config.maxDnsAnswers && config.maxDnsAnswers ≤ maxDnsAnswersBound) then
    .error .dnsAnswers
  else
    match parseDenyCidrs parseIpAddr config.denyCidrs with
    | .error e => .error e
    | .ok _ => .ok ()

inductive ProxyPolicy where
  | disabled | environment
  | explicit (url : String)
deriving DecidableEq

structure OutboundHttpConfig where
  (connectTimeout totalTimeout responseBodyLimitBytes maxRedirects : Nat)
  proxy : ProxyPolicy
  userAgent : String
  urlPolicy : OutboundUrlPolicyConfig

def maxConnectTimeout : Nat := seconds 60

def maxTotalTimeout : Nat := seconds 300

def maxResponseBodyBytes : Nat := 64 * 1024 * 1024

def maxRedirectsBound : Nat := 10

def maxUserAgentBytes : Nat := 256

def validUserAgent (value : String) : Bool :=
  !value.isEmpty && value.utf8ByteSize ≤ maxUserAgentBytes
    && value.toList.all fun c => 0x20 ≤ c.toNat && c.toNat ≤ 0x7e

def OutboundHttpConfig.validate (config : OutboundHttpConfig) : Except ConfigError Unit :=
  if config.connectTimeout = 0 then .error (.zeroDuration "connect_timeout")
  else if config.connectTimeout > maxConnectTimeout then
    .error (.exceedsMaximum "connect_timeout")
  else if config.totalTimeout = 0 then .error (.zeroDuration "total_timeout")
  else if config.totalTimeout > maxTotalTimeout then .error (.exceedsMaximum "total_timeout")
  else if config.connectTimeout > config.totalTimeout then .error .connectExceedsTotal
  else if !(1 ≤ config.responseBodyLimitBytes
      && config.responseBodyLimitBytes ≤ maxResponseBodyBytes) then .error .responseBodyLimit
  else if !(1 ≤ config.maxRedirects && config.maxRedirects ≤ maxRedirectsBound) then
    .error .redirectLimit
  else if !validUserAgent config.userAgent then .error .invalidUserAgent
  else if config.proxy ≠ .disabled then .error .proxyUnsupported
  else config.urlPolicy.validate parseIpAddr

/-! ## 2. URLs -/

structure Url where
  (text scheme username : String)
  (password host : Option String)
  port : Option Nat
  fragment : Option String
deriving DecidableEq

def Url.portOrKnownDefault (url : Url) : Option Nat :=
  match url.port with
  | some port => some port
  | none =>
    match url.scheme with
    | "http" | "ws" => some 80
    | "https" | "wss" => some 443
    | "ftp" => some 21
    | _ => none

/-- What the `url` crate does to a URL. -/
structure UrlCrate where
  (setHost join : Url → String → Option Url)

/-- `trim_end_matches('.')`. -/
def trimEndDots (host : String) : String :=
  String.ofList (host.toList.reverse.dropWhile (· = '.')).reverse

/-- The text between square brackets, or all of it. -/
def stripBrackets (host : String) : String :=
  match host.toList with
  | '[' :: rest => if rest.getLast? = some ']' then String.ofList rest.dropLast else host
  | _ => host

/-- The address a host writes, if it writes one. -/
def literalAddress (host : String) : Option IpAddr := parseIpAddr (stripBrackets host)

/-! ## 3. Resolvers -/

/-- What a DNS lookup gives: the addresses, or an error or a timeout. -/
abbrev Dns := String → Option (List IpAddr)

/-- V4 before V6, then by number, as the standard library orders addresses. -/
def IpAddr.le : IpAddr → IpAddr → Bool
  | .v4 a, .v4 b => a.toNat ≤ b.toNat
  | .v4 _, .v6 _ => true
  | .v6 _, .v4 _ => false
  | .v6 a, .v6 b => a.toNat ≤ b.toNat

/-- Sorted, without repetitions, and neither empty nor too many. -/
def boundedUniqueAnswers (addresses : List IpAddr) (maxUnique : Nat) : Option (List IpAddr) :=
  let unique := (addresses.mergeSort IpAddr.le).dedup
  if unique.isEmpty || unique.length > maxUnique then none else some unique

structure OutboundUrlPolicy where
  config : OutboundUrlPolicyConfig
  addressPolicy : AddressPolicy
  valid : config.validate parseIpAddr = .ok ()
  parsed : parseDenyCidrs parseIpAddr config.denyCidrs = .ok addressPolicy.denyCidrs

inductive OutboundHttpError where
  | destinationRejected | resolution | redirectRejected | redirectLimit | redirectLoop
  | nonReplayableRedirect | timeout | transport | responseBody | responseTooLarge
deriving DecidableEq

variable {parseIpAddr}

def OutboundUrlPolicy.resolveHostname (policy : OutboundUrlPolicy parseIpAddr) (dns : Dns)
    (host : String) : Except OutboundHttpError (List IpAddr) :=
  match dns host with
  | none => .error .resolution
  | some addresses =>
    match boundedUniqueAnswers addresses policy.config.maxDnsAnswers with
    | none => .error .resolution
    | some unique => .ok unique

/-- The resolver the client connects through. -/
def OutboundUrlPolicy.validatingResolver (policy : OutboundUrlPolicy parseIpAddr) (dns : Dns)
    (host : String) : Option (List IpAddr) :=
  match dns host with
  | none => none
  | some addresses =>
    match boundedUniqueAnswers addresses policy.config.maxDnsAnswers with
    | none => none
    | some unique => if unique.all policy.addressPolicy.allowsPublic then some unique else none

/-! ## 4. Admission -/

/-- The host with its trailing dots gone, set in the URL if there were any. -/
def normalizeHost (urls : UrlCrate) (url : Url) : Except OutboundHttpError Url :=
  match url.host with
  | none => .error .destinationRejected
  | some original =>
    if original.toList.contains '%' then .error .destinationRejected
    else
      let normalized := trimEndDots original
      if normalized.isEmpty || normalized.utf8ByteSize > 253 then .error .destinationRejected
      else if normalized.utf8ByteSize ≠ original.utf8ByteSize then
        match urls.setHost url normalized with
        | none => .error .destinationRejected
        | some url => .ok url
      else .ok url

/-- Whether the scheme and port are admitted, and whether as development HTTP. -/
def OutboundUrlPolicy.isDevelopmentHttp (policy : OutboundUrlPolicy parseIpAddr) (url : Url)
    (port : Nat) : Except OutboundHttpError Bool :=
  if url.scheme = "https" && policy.config.allowedHttpsPorts.contains port then .ok false
  else if url.scheme = "http" && policy.config.allowDevelopmentLoopbackHttp then .ok true
  else .error .destinationRejected

def OutboundUrlPolicy.hostAddresses (policy : OutboundUrlPolicy parseIpAddr) (dns : Dns)
    (development : Bool) (host : String) : Except OutboundHttpError (List IpAddr) :=
  match development, literalAddress parseIpAddr host with
  | _, some address => .ok [address]
  | true, none => .error .destinationRejected
  | false, none => policy.resolveHostname dns host

/-- The test each address of an admitted URL has to pass. -/
def AddressPolicy.allows (policy : AddressPolicy) (development : Bool) (address : IpAddr) : Bool :=
  if development then policy.allowsDevelopmentLoopback address else policy.allowsPublic address

def OutboundUrlPolicy.approve (policy : OutboundUrlPolicy parseIpAddr) (urls : UrlCrate)
    (dns : Dns) (url : Url) : Except OutboundHttpError Url :=
  if url.text.utf8ByteSize > maxUrlBytes || !url.username.isEmpty || url.password.isSome
      || url.fragment.isSome then .error .destinationRejected
  else
    match normalizeHost urls url with
    | .error e => .error e
    | .ok url =>
      match url.portOrKnownDefault with
      | none => .error .destinationRejected
      | some port =>
        match policy.isDevelopmentHttp url port, url.host with
        | .error e, _ => .error e
        | .ok _, none => .error .destinationRejected
        | .ok development, some host =>
          match policy.hostAddresses dns development host with
          | .error e => .error e
          | .ok addresses =>
            if addresses.isEmpty || !addresses.all (policy.addressPolicy.allows development) then
              .error .destinationRejected
            else .ok url

/-- Where the client connects for a URL: to the literal host address, or to an address its own
resolver returns for the host, on the URL's port. -/
def OutboundUrlPolicy.connections (policy : OutboundUrlPolicy parseIpAddr) (dns : Dns)
    (url : Url) : List (IpAddr × Nat) :=
  match url.host, url.portOrKnownDefault with
  | some host, some port =>
    match literalAddress parseIpAddr host with
    | some address => [(address, port)]
    | none => ((policy.validatingResolver dns host).getD []).map fun address => (address, port)
  | _, _ => []

open OutboundUrlPolicy (approve connections hostAddresses)

/-! ## 5. What admission ensures -/

variable {policy : OutboundUrlPolicy parseIpAddr} {dns : Dns} {url : Url}

/-- An admitted URL: either HTTPS on an allowed port, whose literal address is public, or, with the
development switch on, HTTP whose host is a literal loopback address that is not denied. -/
inductive Admitted (policy : OutboundUrlPolicy parseIpAddr) (url : Url) : Prop
  | https {host : String} {port : Nat} (scheme : url.scheme = "https")
      (host_eq : url.host = some host) (port_eq : url.portOrKnownDefault = some port)
      (allowed : port ∈ policy.config.allowedHttpsPorts)
      (literal : ∀ address, literalAddress parseIpAddr host = some address →
        policy.addressPolicy.allowsPublic address = true)
  | development {host : String} {address : IpAddr} (scheme : url.scheme = "http")
      (switch : policy.config.allowDevelopmentLoopbackHttp = true) (host_eq : url.host = some host)
      (literal : literalAddress parseIpAddr host = some address)
      (loopback : policy.addressPolicy.allowsDevelopmentLoopback address = true)

variable {host : String} {address : IpAddr} {addresses : List IpAddr}

theorem hostAddresses_literal {development : Bool}
    (hliteral : literalAddress parseIpAddr host = some address)
    (h : policy.hostAddresses dns development host = .ok addresses) : addresses = [address] := by
  simp only [hostAddresses, hliteral] at h
  cases h
  rfl

theorem admitted_of_approve {urls : UrlCrate} {source : Url}
    (h : policy.approve urls dns source = .ok url) : Admitted policy url := by
  unfold approve at h
  split at h
  · cases h
  split at h
  · cases h
  split at h
  · cases h
  rename_i port hport
  split at h
  · cases h
  · cases h
  rename_i development host hsch hhost
  split at h
  · cases h
  rename_i addresses hadrs
  split at h
  · cases h
  rename_i hchk
  cases h
  simp only [Bool.or_eq_true, List.isEmpty_iff, Bool.not_eq_true', List.all_eq_false, not_or,
    not_exists, not_and, Bool.not_eq_true, Bool.not_eq_false] at hchk
  obtain ⟨-, hallowed⟩ := hchk
  simp only [OutboundUrlPolicy.isDevelopmentHttp, Bool.and_eq_true, decide_eq_true_eq] at hsch
  split at hsch
  · rename_i hhttps
    cases hsch
    refine .https hhttps.1 hhost hport (by simpa using hhttps.2) fun address hliteral => ?_
    rw [hostAddresses_literal hliteral hadrs] at hallowed
    exact hallowed address List.mem_cons_self
  · split at hsch
    · rename_i hhttp
      cases hsch
      cases hliteral : literalAddress parseIpAddr host with
      | none =>
        simp only [hostAddresses, hliteral] at hadrs
        cases hadrs
      | some address =>
        rw [hostAddresses_literal hliteral hadrs] at hallowed
        exact .development hhttp.1 hhttp.2 hhost hliteral (hallowed address List.mem_cons_self)
    · cases hsch

theorem validatingResolver_allowed (h : policy.validatingResolver dns host = some addresses) :
    ∀ address ∈ addresses, policy.addressPolicy.allowsPublic address = true := by
  unfold OutboundUrlPolicy.validatingResolver at h
  split at h
  · cases h
  split at h
  · cases h
  split at h
  · rename_i hall
    cases h
    exact List.all_eq_true.mp hall
  · cases h

/-- **A connection for an admitted URL**, whatever DNS says when it is made. -/
theorem connections_of_admitted (h : Admitted policy url) {port : Nat}
    (hcnn : (address, port) ∈ policy.connections dns url) :
    (url.scheme = "https" ∧ port ∈ policy.config.allowedHttpsPorts ∧
      policy.addressPolicy.allowsPublic address = true) ∨
    (url.scheme = "http" ∧ policy.config.allowDevelopmentLoopbackHttp = true ∧
      (∃ host, url.host = some host ∧ literalAddress parseIpAddr host = some address) ∧
      policy.addressPolicy.allowsDevelopmentLoopback address = true) := by
  cases h with
  | https hsch hhost hport hallowed hliteral =>
    rename_i host known
    left
    simp only [connections, hhost, hport] at hcnn
    cases hlit : literalAddress parseIpAddr host with
    | some literal =>
      simp only [hlit, List.mem_singleton, Prod.mk.injEq] at hcnn
      obtain ⟨rfl, rfl⟩ := hcnn
      exact ⟨hsch, hallowed, hliteral _ hlit⟩
    | none =>
      simp only [hlit, List.mem_map, Prod.mk.injEq] at hcnn
      obtain ⟨a, ha, rfl, rfl⟩ := hcnn
      cases hresolved : policy.validatingResolver dns host with
      | none =>
        rw [hresolved] at ha
        exact absurd ha List.not_mem_nil
      | some addresses =>
        rw [hresolved] at ha
        exact ⟨hsch, hallowed, validatingResolver_allowed hresolved a ha⟩
  | development hsch hswitch hhost hliteral hloopback =>
    rename_i host literal
    right
    cases hport : url.portOrKnownDefault with
    | none => simp [connections, hhost, hport] at hcnn
    | some known =>
      simp only [connections, hhost, hport, hliteral, List.mem_singleton,
        Prod.mk.injEq] at hcnn
      obtain ⟨rfl, rfl⟩ := hcnn
      exact ⟨hsch, hswitch, ⟨host, hhost, hliteral⟩, hloopback⟩

end Omnius.Outbound
