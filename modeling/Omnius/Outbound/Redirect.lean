/-
# Redirect chains

The client follows redirects by hand: each response that asks for one is turned into the next
request by `nextRequest`, which admits the new URL, refuses one it has been to, and strips headers
as it goes.  The origin is compared with the PREVIOUS request only.  That is enough for the whole
chain: headers are only ever removed, so what was stripped when the chain left an origin does not
come back when the chain returns to it.

The law of a chain (`RedirectLaw`) is carried by what one request does to the next (`Follows`);
what a chain connects to (`no_forbidden_connection`) rests on it as well, since every request after
the first has a URL that was admitted.

The server, the clock and the resolvers are arbitrary functions of the hop and the request: at each
hop a `Hop` says how the exchange went.

Translated from `crates/outbound-http/src/lib.rs`.
-/
import Omnius.Outbound.Policy
import Mathlib.Data.List.Chain

namespace Omnius.Outbound

open List

variable {headers : HeaderMap} {name : String}

/-! ## 1. Headers -/

/-- Names in lower case, with their values, in order; a name may occur more than once. -/
abbrev HeaderMap := List (String × String)

namespace HeaderMap

variable (headers : HeaderMap)

def remove (name : String) : HeaderMap := headers.filter (·.1 ≠ name)

def containsName (name : String) : Bool := headers.any (·.1 = name)

def getAll (name : String) : List String :=
  (headers.filter (·.1 = name)).map Prod.snd

def removeAll (names : List String) : HeaderMap :=
  names.foldl remove headers

end HeaderMap

/-- `HeaderValue::to_str`: visible ASCII and tabs. -/
def headerText (value : String) : Option String :=
  if value.toList.all fun c => (0x20 ≤ c.toNat && c.toNat < 0x7f) || c = '\t' then some value
  else none

def isTokenChar (c : Char) : Bool :=
  c.isAlphanum || "!#$%&'*+-.^_`|~".toList.contains c

/-- `HeaderName::from_bytes`, of a trimmed token. -/
def headerName (token : List Char) : Option String :=
  let blank := fun c => c = ' ' || c = '\t'
  let trimmed := ((token.dropWhile blank).reverse.dropWhile blank).reverse
  if trimmed.isEmpty || !trimmed.all isTokenChar then none
  else some (String.ofList (trimmed.map Char.toLower))

def entityHeaders : List String :=
  ["content-encoding", "content-length", "content-type", "transfer-encoding"]

def removeEntityHeaders (headers : HeaderMap) : HeaderMap := headers.removeAll entityHeaders

/-- The headers that `connection` nominates. -/
def nominatedHeaders (headers : HeaderMap) : List String :=
  (headers.getAll "connection").flatMap fun value =>
    match headerText value with
    | none => []
    | some text => (text.toList.splitOn ',').filterMap headerName

def hopByHopHeaders : List String :=
  ["connection", "host", "proxy-authenticate", "te", "trailer", "transfer-encoding", "upgrade",
    "keep-alive", "proxy-connection"]

def removeHopByHopHeaders (headers : HeaderMap) : HeaderMap :=
  (headers.removeAll (nominatedHeaders headers)).removeAll hopByHopHeaders

/-- The sensitive names that are not fixed. -/
def isInternalHeader (name : String) : Bool :=
  name = "cookie2" || name = "x-api-key" || name = "x-auth-token"
    || "x-internal-".toList.isPrefixOf name.toList
    || "x-omnius-internal-".toList.isPrefixOf name.toList

def removeSensitiveHeaders (headers : HeaderMap) : HeaderMap :=
  let headers :=
    headers.removeAll ["authorization", "cookie", "proxy-authorization", "www-authenticate"]
  headers.removeAll ((headers.map Prod.fst).filter isInternalHeader)

/-! ## 2. Requests and responses -/

abbrev Method := String

inductive PolicyClass where
  | standard | noRedirect
deriving DecidableEq

/-- A body that can be sent again, or a stream that cannot. -/
inductive Body where
  | bytes (data : List UInt8)
  | stream
deriving DecidableEq

structure Request where
  method : Method
  url : Url
  headers : HeaderMap
  body : Option Body
deriving DecidableEq

def Request.tryClone (request : Request) : Option Request :=
  match request.body with
  | some .stream => none
  | _ => some request

/-- A response: its status, its `location`, and how its body arrives. -/
structure Response where
  status : Nat
  location : Option String
  contentLength : Option Nat
  chunks : List Nat
  bodyError : Option OutboundHttpError

def Response.isRedirection (response : Response) : Bool :=
  300 ≤ response.status && response.status ≤ 399

def redirectedMethod (status : Nat) (method : Method) : Method :=
  if (status = 301 || status = 302) && method = "POST" then "GET"
  else if status = 303 && method ≠ "HEAD" then "GET"
  else method

def sameOrigin (left right : Url) : Bool :=
  left.scheme = right.scheme && left.host = right.host
    && left.portOrKnownDefault = right.portOrKnownDefault

/-- The loop of `drain_response`. -/
def drainChunks (limit received : Nat) (bodyError : Option OutboundHttpError) :
    List Nat → Except OutboundHttpError Unit
  | [] =>
    match bodyError with
    | none => .ok ()
    | some e => .error e
  | chunk :: chunks =>
    if received + chunk ≤ limit then drainChunks limit (received + chunk) bodyError chunks
    else .error .responseTooLarge

def drainResponse (response : Response) (limit : Nat) : Except OutboundHttpError Unit :=
  if response.contentLength.any (· > limit) then .error .responseTooLarge
  else drainChunks limit 0 response.bodyError response.chunks

/-! ## 3. The chain -/

/-- A client: a valid configuration and the policy built from it. -/
structure OutboundHttpClients (parseIpAddr : String → Option IpAddr) where
  config : OutboundHttpConfig
  valid : config.validate parseIpAddr = .ok ()
  urlPolicy : OutboundUrlPolicy parseIpAddr
  policy_eq : urlPolicy.config = config.urlPolicy

/-- How one exchange goes: the response or a transport error, the time elapsed at each reading of
the clock, and the DNS answers during admission, which may also time out. -/
structure Hop where
  beforeSend : Nat
  response : Except OutboundHttpError Response
  beforeApproval : Nat
  approvalTimedOut : Bool
  dns : Dns
  (afterApproval afterDrain : Nat)

variable {parseIpAddr : String → Option IpAddr}

def OutboundHttpClients.remaining (client : OutboundHttpClients parseIpAddr) (elapsed : Nat) :
    Except OutboundHttpError Nat :=
  if elapsed < client.config.totalTimeout then .ok (client.config.totalTimeout - elapsed)
  else .error .timeout

/-- The next request, at the admitted URL: replayed, or rebuilt without its body. -/
def redirectedRequest (request : Request) (response : Response) (approved : Url) :
    Except OutboundHttpError Request :=
  let method := redirectedMethod response.status request.method
  let next : Except OutboundHttpError Request :=
    if method = request.method then
      match request.tryClone with
      | none => .error .nonReplayableRedirect
      | some replay => .ok replay
    else .ok ⟨method, approved, removeEntityHeaders request.headers, none⟩
  match next with
  | .error e => .error e
  | .ok next =>
    let headers := removeHopByHopHeaders next.headers
    let headers :=
      if sameOrigin request.url approved then headers else removeSensitiveHeaders headers
    .ok { next with url := approved, headers }

def OutboundHttpClients.nextRequest (client : OutboundHttpClients parseIpAddr) (urls : UrlCrate)
    (hop : Hop) (visited : List Url) (request : Request) (response : Response) :
    Except OutboundHttpError Request :=
  match (response.location.bind headerText).filter (·.utf8ByteSize ≤ 8 * 1024) with
  | none => .error .redirectRejected
  | some location =>
    match urls.join request.url location with
    | none => .error .redirectRejected
    | some nextUrl =>
      match client.remaining hop.beforeApproval with
      | .error e => .error e
      | .ok _ =>
        if hop.approvalTimedOut then .error .timeout
        else
          match client.urlPolicy.approve urls hop.dns nextUrl with
          | .error e => .error e
          | .ok approved =>
            if approved ∈ visited then .error .redirectLoop
            else
              match client.remaining hop.afterApproval,
                  drainResponse response client.config.responseBodyLimitBytes,
                  client.remaining hop.afterDrain with
              | .error e, _, _ => .error e
              | .ok _, .error e, _ => .error e
              | .ok _, .ok _, .error e => .error e
              | .ok _, .ok _, .ok _ => redirectedRequest request response approved

/-- The loop of `execute_redirect_chain`: the requests sent, and the result.  `left` is the number
of redirects that may still be followed. -/
def OutboundHttpClients.chain (client : OutboundHttpClients parseIpAddr) (urls : UrlCrate)
    (policy : PolicyClass) (hops : Nat → Request → Hop) (left index : Nat) (visited : List Url)
    (request : Request) : List Request × Except OutboundHttpError Response :=
  let hop := hops index request
  match client.remaining hop.beforeSend with
  | .error e => ([], .error e)
  | .ok _ =>
    match hop.response with
    | .error e => ([request], .error e)
    | .ok response =>
      if policy = .noRedirect || !response.isRedirection then ([request], .ok response)
      else
        match left with
        | 0 => ([request], .error .redirectLimit)
        | left + 1 =>
          match client.nextRequest urls hop visited request response with
          | .error e => ([request], .error e)
          | .ok next =>
            let (sent, result) :=
              client.chain urls policy hops left (index + 1) (next.url :: visited) next
            (request :: sent, result)

def OutboundHttpClients.executeRedirectChain (client : OutboundHttpClients parseIpAddr)
    (urls : UrlCrate) (policy : PolicyClass) (hops : Nat → Request → Hop) (request : Request) :
    List Request × Except OutboundHttpError Response :=
  client.chain urls policy hops client.config.maxRedirects 0 [request.url] request

/-! ## 4. Headers are only removed -/

namespace HeaderMap

theorem containsName_remove {removed : String} : (headers.remove removed).containsName name =
      (headers.containsName name && decide (name ≠ removed)) := by
  rw [Bool.eq_iff_iff]
  simp only [containsName, remove, any_eq_true, mem_filter, decide_eq_true_eq,
    Bool.and_eq_true]
  constructor
  · rintro ⟨entry, ⟨hmem, hne⟩, rfl⟩
    exact ⟨⟨entry, hmem, rfl⟩, hne⟩
  · rintro ⟨⟨entry, hmem, rfl⟩, hne⟩
    exact ⟨entry, ⟨hmem, hne⟩, rfl⟩

variable {names : List String}

theorem containsName_removeAll : (headers.removeAll names).containsName name =
      (headers.containsName name && decide (name ∉ names)) := by
  induction names generalizing headers with
  | nil => simp [removeAll]
  | cons first names ih =>
    have hstep : headers.removeAll (first :: names) = (headers.remove first).removeAll names := rfl
    rw [hstep, ih, containsName_remove, Bool.and_assoc]
    simp

theorem containsName_of_removeAll (h : (headers.removeAll names).containsName name = true) :
    headers.containsName name = true := by
  rw [containsName_removeAll, Bool.and_eq_true] at h
  exact h.1

end HeaderMap

theorem containsName_of_removeHopByHopHeaders
    (h : (removeHopByHopHeaders headers).containsName name = true) :
    headers.containsName name = true :=
  HeaderMap.containsName_of_removeAll (HeaderMap.containsName_of_removeAll h)

theorem containsName_of_removeSensitiveHeaders
    (h : (removeSensitiveHeaders headers).containsName name = true) :
    headers.containsName name = true :=
  HeaderMap.containsName_of_removeAll (HeaderMap.containsName_of_removeAll h)

/-! ## 5. One request after another -/

/-- A URL that the client's policy admitted, under some DNS answers. -/
def Approved (client : OutboundHttpClients parseIpAddr) (urls : UrlCrate) (url : Url) : Prop :=
  ∃ dns source, client.urlPolicy.approve urls dns source = .ok url

/-- A header that `removeSensitiveHeaders` removes. -/
def Sensitive (name : String) : Prop :=
  ∀ headers : HeaderMap, (removeSensitiveHeaders headers).containsName name = false

/-- **What one request does to the next.** -/
structure Follows (client : OutboundHttpClients parseIpAddr) (urls : UrlCrate)
    (request next : Request) : Prop where
  approved : Approved client urls next.url
  headers : ∀ name, next.headers.containsName name = true →
    request.headers.containsName name = true
  confined : ∀ name, Sensitive name → next.headers.containsName name = true →
    sameOrigin request.url next.url = true
  bodiless : next.method ≠ request.method →
    next.body = none ∧ ∀ name ∈ entityHeaders, next.headers.containsName name = false

variable {client : OutboundHttpClients parseIpAddr} {urls : UrlCrate}

theorem Request.tryClone_eq {request replay : Request} (h : request.tryClone = some replay) :
    replay = request := by
  unfold Request.tryClone at h
  split at h <;> cases h
  rfl

variable {next : Request} {response : Response}

theorem redirectedRequest_follows {request : Request} {approved : Url}
    (happ : Approved client urls approved)
    (h : redirectedRequest request response approved = .ok next) :
    next.url = approved ∧ Follows client urls request next := by
  -- the request before the URL is set and the headers are stripped
  obtain ⟨base, hheaders, hbodiless, rfl⟩ : ∃ base : Request,
      (∀ name, base.headers.containsName name = true →
        request.headers.containsName name = true) ∧
      (base.method ≠ request.method →
        base.body = none ∧ ∀ name ∈ entityHeaders, base.headers.containsName name = false) ∧
      { base with
        url := approved
        headers :=
          if sameOrigin request.url approved then removeHopByHopHeaders base.headers
          else removeSensitiveHeaders (removeHopByHopHeaders base.headers) } = next := by
    simp only [redirectedRequest] at h
    by_cases hmethod : redirectedMethod response.status request.method = request.method
    · rw [if_pos hmethod] at h
      cases hclone : request.tryClone with
      | none =>
        rw [hclone] at h
        cases h
      | some replay =>
        rw [hclone] at h
        cases h
        rw [Request.tryClone_eq hclone]
        exact ⟨request, fun _ hname => hname, fun hne => absurd rfl hne, rfl⟩
    · rw [if_neg hmethod] at h
      cases h
      refine ⟨_, fun _ hname => HeaderMap.containsName_of_removeAll hname, fun _ => ⟨rfl, ?_⟩, rfl⟩
      intro name hname
      simp [removeEntityHeaders, HeaderMap.containsName_removeAll, hname]
  -- stripping only removes
  have hstripped : ∀ name, (if sameOrigin request.url approved then
        removeHopByHopHeaders base.headers
      else removeSensitiveHeaders (removeHopByHopHeaders base.headers)).containsName name = true →
      base.headers.containsName name = true := by
    intro name hname
    split at hname
    · exact containsName_of_removeHopByHopHeaders hname
    · exact containsName_of_removeHopByHopHeaders (containsName_of_removeSensitiveHeaders hname)
  refine ⟨rfl, happ, fun name hname => hheaders name (hstripped name hname), ?_, ?_⟩
  · intro name hsensitive hname
    dsimp only at hname ⊢
    by_cases horigin : sameOrigin request.url approved = true
    · exact horigin
    · rw [if_neg horigin, hsensitive] at hname
      cases hname
  · intro hne
    obtain ⟨hbody, hentity⟩ := hbodiless hne
    refine ⟨hbody, fun name hname => ?_⟩
    have habs := hentity name hname
    by_contra hprs
    rw [Bool.not_eq_false] at hprs
    rw [hstripped name hprs] at habs
    cases habs

theorem nextRequest_follows {hop : Hop} {visited : List Url} {request : Request}
    (h : client.nextRequest urls hop visited request response = .ok next) :
    next.url ∉ visited ∧ Follows client urls request next := by
  unfold OutboundHttpClients.nextRequest at h
  split at h
  · cases h
  split at h
  · cases h
  split at h
  · cases h
  split at h
  · cases h
  split at h
  · cases h
  rename_i approved happ
  split at h
  · cases h
  rename_i hnew
  split at h
  · cases h
  · cases h
  · cases h
  obtain ⟨hurl, hfol⟩ := redirectedRequest_follows ⟨hop.dns, _, happ⟩ h
  rw [hurl]
  exact ⟨hnew, hfol⟩

/-! ## 6. The whole chain -/

section Chain

variable (client urls) (policy : PolicyClass) (hops : Nat → Request → Hop)

theorem chain_cases (left index : Nat) (visited : List Url) (request : Request) :
    ((client.chain urls policy hops left index visited request).1 = [] ∧
      client.config.totalTimeout ≤ (hops index request).beforeSend) ∨
    (client.chain urls policy hops left index visited request).1 = [request] ∨
    (policy ≠ .noRedirect ∧ ∃ left' next, left = left' + 1 ∧ next.url ∉ visited ∧
      Follows client urls request next ∧
      (client.chain urls policy hops left index visited request).1 =
        request ::
          (client.chain urls policy hops left' (index + 1) (next.url :: visited) next).1) := by
  rw [OutboundHttpClients.chain]
  split
  · rename_i e he
    unfold OutboundHttpClients.remaining at he
    split at he
    · cases he
    · rename_i helapsed
      exact .inl ⟨rfl, Nat.not_lt.mp helapsed⟩
  right
  split
  · exact .inl rfl
  split
  · exact .inl rfl
  rename_i hredirect
  have hpol : policy ≠ .noRedirect := fun hno => hredirect (by simp [hno])
  split
  · exact .inl rfl
  split
  · exact .inl rfl
  rename_i left' _ next hnext
  obtain ⟨hnew, hfol⟩ := nextRequest_follows hnext
  exact .inr ⟨hpol, left', next, rfl, hnew, hfol, rfl⟩

theorem chain_head (left index : Nat) (visited : List Url) (request : Request) :
    ∀ r, (client.chain urls policy hops left index visited request).1[0]? = some r →
      r = request := by
  intro r hr
  rcases chain_cases client urls policy hops left index
    visited request with ⟨hsent, -⟩ | hsent | ⟨-, left', next, -, -, -, hsent⟩
  all_goals
    rw [hsent] at hr
    simp at hr
  · exact hr.symm
  · exact hr.symm

/-- Each request of a chain follows the one before it; there are few, and their URLs are new. -/
theorem chain_law (left index : Nat) (visited : List Url) (request : Request)
    (hvisited : request.url ∈ visited) :
    IsChain (Follows client urls)
        (client.chain urls policy hops left index visited request).1 ∧
      (client.chain urls policy hops left index visited request).1.length ≤ left + 1 ∧
      ((client.chain urls policy hops left index visited request).1.map Request.url).Nodup ∧
      ∀ r ∈ (client.chain urls policy hops left index visited request).1.tail, r.url ∉ visited := by
  -- the induction is on the redirects left; `visited` grows with every request
  induction left using Nat.strong_induction_on generalizing index visited request with
  | _ left ih =>
    rcases chain_cases client urls policy hops left index visited request
      with ⟨hsent, -⟩ | hsent | ⟨-, left, next, rfl, hnew, hfol, hsent⟩
    · simp [hsent]
    · simp [hsent]
    · obtain ⟨hchain, hlen, hnd, htail⟩ := ih left (Nat.lt_succ_self _) (index + 1)
        (next.url :: visited) next mem_cons_self
      have hhead := chain_head client urls policy hops
        left (index + 1) (next.url :: visited) next
      generalize (client.chain urls policy hops left (index + 1) (next.url :: visited) next).1 =
        sent at *
      rw [hsent]
      have hfr : ∀ r ∈ sent, r.url ∉ visited := by
        intro r hr
        cases sent with
        | nil => cases hr
        | cons first rest =>
          rcases mem_cons.mp hr with rfl | hr
          · rw [hhead r rfl]
            exact hnew
          · exact fun hold => htail r hr (mem_cons_of_mem _ hold)
      refine ⟨?_, by simpa using hlen, ?_, hfr⟩
      · rw [isChain_cons]
        refine ⟨fun r hr => ?_, hchain⟩
        rw [hhead r (List.head?_eq_getElem? ▸ hr)]
        exact hfol
      · rw [map_cons, nodup_cons]
        refine ⟨fun hmem => ?_, hnd⟩
        obtain ⟨r, hr, hurl⟩ := mem_map.mp hmem
        exact hfr r hr (hurl ▸ hvisited)

variable {client urls}

theorem follows_of_isChain {sent : List Request} (h : sent.IsChain (Follows client urls)) {k : Nat}
    {q r : Request} (hq : sent[k]? = some q) (hr : sent[k + 1]? = some r) :
    Follows client urls q r := by
  obtain ⟨hk, rfl⟩ := List.getElem?_eq_some_iff.mp hq
  obtain ⟨hk', rfl⟩ := List.getElem?_eq_some_iff.mp hr
  exact List.isChain_iff_getElem.mp h k hk'

theorem approved_of_mem_chain {request r : Request}
    (hr : r ∈ (client.executeRedirectChain urls policy hops request).1) :
    r = request ∨ Approved client urls r.url := by
  obtain ⟨hchain, -⟩ := chain_law client urls policy hops client.config.maxRedirects 0
    [request.url] request mem_cons_self
  obtain ⟨k, hk, rfl⟩ := mem_iff_getElem.mp hr
  cases k with
  | zero => exact .inl (chain_head client urls policy hops _ _ _ _ _ (List.getElem?_eq_getElem hk))
  | succ k => exact .inr (List.isChain_iff_getElem.mp hchain k hk).approved

theorem sameOrigin_refl (url : Url) : sameOrigin url url = true := by simp [sameOrigin]

theorem sameOrigin_trans {a b c : Url} (hab : sameOrigin a b = true)
    (hbc : sameOrigin b c = true) : sameOrigin a c = true := by
  simp only [sameOrigin, Bool.and_eq_true, decide_eq_true_eq] at *
  exact ⟨⟨hab.1.1.trans hbc.1.1, hab.1.2.trans hbc.1.2⟩, hab.2.trans hbc.2⟩

/-- A sensitive header on the `k`-th request was on every request before it, all at one origin. -/
theorem confined_of_chain {sent : List Request} (h : sent.IsChain (Follows client urls))
    {first : Request} (hfst : ∀ q, sent[0]? = some q → q = first) (hname : Sensitive name) :
    ∀ {k : Nat} {r : Request}, sent[k]? = some r → r.headers.containsName name = true →
      ∀ i ≤ k, ∀ q, sent[i]? = some q → sameOrigin first.url q.url = true := by
  intro k
  induction k with
  | zero =>
    intro r hr hprs i hi q hq
    obtain rfl := Nat.le_zero.mp hi
    rw [hfst q hq]
    exact sameOrigin_refl _
  | succ k ih =>
    intro r hr hprs i hi q hq
    have hlt : k + 1 < sent.length := (List.getElem?_eq_some_iff.mp hr).1
    obtain ⟨before, hbef⟩ : ∃ before, sent[k]? = some before :=
      ⟨_, List.getElem?_eq_getElem (by omega)⟩
    have hfol := follows_of_isChain h hbef hr
    have hear := ih hbef (hfol.headers name hprs)
    rcases Nat.lt_or_ge k i with hlast | hold
    · obtain rfl : i = k + 1 := by omega
      rw [hr] at hq
      cases hq
      exact sameOrigin_trans (hear k (Nat.le_refl k) before hbef) (hfol.confined name hname hprs)
    · exact hear i hold q hq

/-- **The law of a redirect chain**: `sent` are the requests, in order. -/
structure RedirectLaw (client : OutboundHttpClients parseIpAddr) (urls : UrlCrate)
    (policy : PolicyClass) (hops : Nat → Request → Hop) (request : Request)
    (sent : List Request) : Prop where
  bounded : sent.length ≤ client.config.maxRedirects + 1
  approved : ∀ r ∈ sent, Approved client urls r.url
  distinct : (sent.map Request.url).Nodup
  /-- A sensitive header is on the `k`-th request only if all requests so far had the scheme, host
  and port of the first. -/
  confined : ∀ name, Sensitive name → ∀ (k : Nat) (r : Request), sent[k]? = some r →
    r.headers.containsName name = true →
    ∀ i ≤ k, ∀ q : Request, sent[i]? = some q → sameOrigin request.url q.url = true
  /-- A request that changed method carries no body and no entity header. -/
  bodiless : ∀ (k : Nat) (q r : Request), sent[k]? = some q → sent[k + 1]? = some r →
    r.method ≠ q.method →
    r.body = none ∧ ∀ name ∈ entityHeaders, r.headers.containsName name = false
  /-- Without redirects exactly one request is sent, unless the deadline had passed before it. -/
  single : policy = .noRedirect →
    sent = [request] ∨ (sent = [] ∧ client.config.totalTimeout ≤ (hops 0 request).beforeSend)

/-- **Redirect chains confine credentials and stay bounded.** -/
theorem redirect_chain_law (client : OutboundHttpClients parseIpAddr) (urls : UrlCrate)
    (policy : PolicyClass) (hops : Nat → Request → Hop) (request : Request)
    (hrequest : Approved client urls request.url) :
    RedirectLaw client urls policy hops request
      (client.executeRedirectChain urls policy hops request).1 := by
  obtain ⟨hchain, hlen, hnd, -⟩ := chain_law client urls policy hops
    client.config.maxRedirects 0 [request.url] request mem_cons_self
  refine ⟨hlen, fun r hr => ?_, hnd, fun name hname k r hr hprs => ?_,
    fun k q r hq hr => (follows_of_isChain hchain hq hr).bodiless, fun hno => ?_⟩
  · rcases approved_of_mem_chain policy hops hr with rfl | happ
    · exact hrequest
    · exact happ
  · exact confined_of_chain hchain (chain_head client urls policy hops _ _ _ _) hname hr hprs
  · rcases chain_cases client urls policy hops client.config.maxRedirects 0 [request.url] request
      with hnone | hone | ⟨hpol, -⟩
    · exact .inr hnone
    · exact .inl hone
    · exact absurd hno hpol

end Chain

/-! ## 7. What a chain connects to -/

structure Permitted (config : OutboundHttpConfig) (parseIpAddr : String → Option IpAddr) (url : Url)
    (address : IpAddr) (port : Nat) : Prop where
  scheme : url.scheme = "https" ∨ url.scheme = "http"
  /-- No configured text denotes a block with the address in it. -/
  undenied : ∀ value ∈ config.urlPolicy.denyCidrs, ∀ network length,
    cidrText parseIpAddr value = some (network, length) → ¬ InBlock network length address
  /-- HTTPS goes to a public address that carries no IPv4 address, on an allowed port. -/
  https : url.scheme = "https" →
    (∀ block ∈ specialBlocks, ¬ InBlock block.1 block.2 address) ∧
    (∀ bits, address = .v6 bits → ¬ EmbedsIpv4 bits) ∧ port ∈ config.urlPolicy.allowedHttpsPorts
  /-- HTTP needs the development switch, and goes to the loopback address the host writes. -/
  http : url.scheme = "http" → config.urlPolicy.allowDevelopmentLoopbackHttp = true ∧
    isLoopback address = true ∧
    ∃ host, url.host = some host ∧ literalAddress parseIpAddr host = some address

theorem permitted_of_admitted {url : Url} (h : Admitted client.urlPolicy url) {dns : Dns}
    {address : IpAddr} {port : Nat}
    (hcnn : (address, port) ∈ client.urlPolicy.connections dns url) :
    Permitted client.config parseIpAddr url address port := by
  have hden := @outside_of_not_denied _ address _ _ client.urlPolicy.parsed
  rw [client.policy_eq] at hden
  rcases connections_of_admitted h hcnn with ⟨hsch, hport, hall⟩ | ⟨hsch, hswitch, hhost, hall⟩
  · simp only [AddressPolicy.allowsPublic, Bool.and_eq_true, Bool.not_eq_true'] at hall
    rw [client.policy_eq] at hport
    refine ⟨.inl hsch, hden hall.2, fun _ => ⟨outside_of_isPublicIp hall.1, ?_, hport⟩, ?_⟩
    · rintro bits rfl
      exact embedsIpv4_not_public hall.1
    · intro hhttp
      rw [hsch] at hhttp
      exact absurd hhttp (by decide)
  · simp only [AddressPolicy.allowsDevelopmentLoopback, Bool.and_eq_true, Bool.not_eq_true'] at hall
    rw [client.policy_eq] at hswitch
    refine ⟨.inr hsch, hden hall.2, ?_, fun _ => ⟨hswitch, hall.1, hhost⟩⟩
    intro hhttps
    rw [hsch] at hhttps
    exact absurd hhttps (by decide)

/-- Admission looks at the origin only. -/
theorem Admitted.of_sameOrigin {policy : OutboundUrlPolicy parseIpAddr} {approved url : Url}
    (h : Admitted policy approved) (horigin : sameOrigin approved url = true) :
    Admitted policy url := by
  simp only [sameOrigin, Bool.and_eq_true, decide_eq_true_eq] at horigin
  obtain ⟨⟨hsch, hhost⟩, hport⟩ := horigin
  cases h with
  | https scheme host_eq port_eq allowed literal =>
    exact .https (hsch ▸ scheme) (hhost ▸ host_eq) (hport ▸ port_eq) allowed literal
  | development scheme switch host_eq literal loopback =>
    exact .development (hsch ▸ scheme) switch (hhost ▸ host_eq) literal loopback

/-- **No connection to a forbidden address.**  The first request goes to an admitted URL, to which
the caller may have added a query; whatever DNS answered then, whatever it answers when the client
connects, and wherever the servers redirect to, every connection is a permitted one. -/
theorem no_forbidden_connection (client : OutboundHttpClients parseIpAddr) (urls : UrlCrate)
    (policy : PolicyClass) (hops : Nat → Request → Hop) (request : Request) (approved : Url)
    (happroved : Approved client urls approved)
    (horigin : sameOrigin approved request.url = true) :
    ∀ r ∈ (client.executeRedirectChain urls policy hops request).1, ∀ (dns : Dns) (address : IpAddr)
      (port : Nat), (address, port) ∈ client.urlPolicy.connections dns r.url →
      Permitted client.config parseIpAddr r.url address port := by
  intro r hr dns address port hcnn
  refine permitted_of_admitted ?_ hcnn
  have hadmitted : ∀ {url : Url}, Approved client urls url → Admitted client.urlPolicy url := by
    rintro url ⟨dns', source, h⟩
    exact admitted_of_approve h
  rcases approved_of_mem_chain policy hops hr with rfl | happroved
  · exact (hadmitted happroved).of_sameOrigin horigin
  · exact hadmitted happroved

/-! ## 8. Runs -/

namespace Demo

def parseAddress (text : String) : Option IpAddr :=
  if text = "8.8.8.8" then some (.v4 (ofOctets 32 [8, 8, 8, 8]))
  else if text = "9.9.9.9" then some (.v4 (ofOctets 32 [9, 9, 9, 9]))
  else none

def policyConfig : OutboundUrlPolicyConfig := ⟨[443], false, [], seconds 2, 32⟩

def publicClient : OutboundHttpClients parseAddress where
  config := ⟨seconds 5, seconds 30, 1024, 5, .disabled, "kit", policyConfig⟩
  valid := by decide
  urlPolicy := ⟨policyConfig, ⟨[]⟩, by decide, rfl⟩
  policy_eq := rfl

def url (host : String) : Url := ⟨host, "https", "", none, some host, none, none⟩

def redirectTo : UrlCrate := ⟨fun u _ => some u, fun _ location => some (url location)⟩

def request : Request := ⟨"POST", url "8.8.8.8", [("authorization", "secret")], none⟩

/-- A server that answers every request with a redirect to the second host. -/
def hops (elapsed : Nat) (_ : Nat) (_ : Request) : Hop where
  beforeSend := elapsed
  response := .ok ⟨302, some "9.9.9.9", none, [], none⟩
  beforeApproval := elapsed
  approvalTimedOut := false
  dns := fun _ => none
  afterApproval := elapsed
  afterDrain := elapsed

def dnsAnswer (octets : List Nat) : Dns := fun _ => some [.v4 (ofOctets 32 octets)]

/-- A server that answers with a redirect to a host NAME, which resolves to the first host while
the redirect is admitted. -/
def hopsToName (index : Nat) (request : Request) : Hop :=
  { hops 0 index request with
    response := .ok ⟨302, some "mirror.example", none, [], none⟩
    dns := dnsAnswer [8, 8, 8, 8] }

theorem approved : Approved publicClient redirectTo request.url :=
  ⟨fun _ => none, url "8.8.8.8", by decide⟩

end Demo

open Demo

/-- The chain goes to the second host without the credential, and stops when sent there again. -/
theorem redirect_chain_law_two_hosts :
    (publicClient.executeRedirectChain redirectTo .standard (hops 0) request).1 =
        [request, ⟨"GET", url "9.9.9.9", [], none⟩] ∧
      RedirectLaw publicClient redirectTo .standard (hops 0) request
        (publicClient.executeRedirectChain redirectTo .standard (hops 0) request).1 :=
  ⟨by decide +kernel, redirect_chain_law _ _ _ _ _ approved⟩

/-- **Not always exactly one.**  When the deadline has passed before the first request, none is
sent, also without redirects. -/
theorem no_request_after_deadline :
    Approved publicClient redirectTo request.url ∧
      (publicClient.executeRedirectChain redirectTo .noRedirect (hops (seconds 30))
        request).1.length ≠ 1 :=
  ⟨approved, by decide +kernel⟩

/-- The name is resolved again at connect time: to another public address, which is connected to,
or to a private one, which is not. -/
theorem no_forbidden_connection_two_hosts :
    publicClient.urlPolicy.connections (dnsAnswer [9, 9, 9, 9]) (url "mirror.example") =
        [(.v4 (ofOctets 32 [9, 9, 9, 9]), 443)] ∧
      Permitted publicClient.config parseAddress (url "mirror.example")
        (.v4 (ofOctets 32 [9, 9, 9, 9])) 443 ∧
      publicClient.urlPolicy.connections (dnsAnswer [10, 0, 0, 1]) (url "mirror.example") = [] := by
  have hcnn : publicClient.urlPolicy.connections (dnsAnswer [9, 9, 9, 9]) (url "mirror.example") =
      [(.v4 (ofOctets 32 [9, 9, 9, 9]), 443)] := by decide +kernel
  refine ⟨hcnn, ?_, by decide +kernel⟩
  exact no_forbidden_connection publicClient redirectTo .standard hopsToName request
    request.url approved (sameOrigin_refl _) ⟨"GET", url "mirror.example", [], none⟩
    (by decide +kernel) _ _ _ (hcnn ▸ mem_cons_self)

end Omnius.Outbound
