/-
  Momento.Http.ClientAddress

  **WHOSE REQUEST IT IS.**  Rate limits and network classes go by the address
  `Server.clientIP` gives a request: the peer's own, unless the peer is a trusted
  proxy; then the last address of `X-Forwarded-For` that is no trusted proxy.  The
  loop goes through the header backwards and skips what is no address.

  The header is its first line.  A proxy that appends to that line has the last word;
  behind one that adds a line of its own, the first line is the client's, and so is
  the choice of the address.
-/
import Momento.Service.Runs

namespace Momento.Http

/-! ## §1. The request. -/

/-- `*net.IPNet`, as `networkNumberAndMask` reads it: a range written with IPv4-mapped
addresses is a range of IPv4 addresses. -/
structure IPNet where
  family : IpFamily
  bits : Nat
  maskLength : Nat

/-- `IPNet.Contains`. -/
def IPNet.contains (network : IPNet) (ip : IpAddress) : Bool :=
  network.family = ip.family
    && network.bits >>> (ip.family.width - network.maskLength)
      = ip.bits >>> (ip.family.width - network.maskLength)

/-- What `clientIP` reads of `*http.Request`: the peer, and the header's values by
canonical name, in the order they arrived. -/
structure Request where
  remoteAddr : String
  header : List (String × List String)

/-- `Header.Get`: the first value. -/
def Request.get (r : Request) (name : String) : String :=
  ((r.header.lookup name).bind List.head?).getD ""

/-- `net.SplitHostPort`, the host alone; `none` is an error. -/
def splitHostPort (hostport : List Char) : Option (List Char) :=
  -- the port starts after the last colon
  let port := (hostport.reverse.takeWhile (· ≠ ':')).reverse
  let before := hostport.take (hostport.length - port.length - 1)
  if ':' ∉ hostport then none
  else match hostport with
    | '[' :: inside =>
      let host := inside.takeWhile (· ≠ ']')
      if ']' ∉ inside ∨ before ≠ '[' :: host ++ [']'] then none
      else if '[' ∈ inside ∨ ']' ∈ port then none
      else some host
    | _ => if ':' ∈ before ∨ '[' ∈ hostport ∨ ']' ∈ hostport then none else some before

/-- The package function `clientIP`: the peer without its port. -/
def peerAddress (r : Request) : String :=
  (splitHostPort r.remoteAddr.toList).elim r.remoteAddr String.ofList

/-! ## §2. The address. -/

/-- `strings.Split(header, ",")`. -/
def splitComma (header : String) : List String := (header.toList.splitOn ',').map String.ofList

/-- What `clientIP` reads of `*Server`. -/
structure Server where
  trustedProxies : List IPNet

namespace Server
variable (env : Platform) (s : Server)

/-- One of the trusted proxies has it. -/
def ipTrusted (ip : IpAddress) : Bool := s.trustedProxies.any (·.contains ip)

/-- One entry of the chain: an address that is no trusted proxy. -/
def untrustedEntry (entry : String) : Option IpAddress :=
  (env.parseIp (trimSpace entry)).filter fun candidate => !s.ipTrusted candidate

/-- The method `clientIP`. -/
def clientIP (r : Request) : String :=
  match env.parseIp (peerAddress r) with
  | none => peerAddress r
  | some remote =>
    if !s.ipTrusted remote then peerAddress r
    else
      -- `for i := len(chain) - 1; i >= 0; i--`
      match (splitComma (r.get "X-Forwarded-For")).reverse.findSome? (s.untrustedEntry env) with
      | some candidate => env.ipString candidate
      | none => env.ipString remote

/-- The peer is a trusted proxy. -/
def PeerTrusted (r : Request) : Prop := ∃ remote, env.parseIp (peerAddress r) = some remote ∧ s.ipTrusted remote

end Server

/-! ## §3. Commas. -/

theorem splitComma_append (before after : String) :
    splitComma (before ++ "," ++ after) = splitComma before ++ splitComma after := by
  have hchars : (before ++ "," ++ after).toList = before.toList ++ ',' :: after.toList := by
    simp
  unfold splitComma
  rw [hchars, List.splitOn_append_cons_self, List.map_append]

/-- An entry is a text without a comma. -/
theorem splitComma_entry {entry : String} (h : ',' ∉ entry.toList) : splitComma entry = [entry] := by
  unfold splitComma
  rw [List.splitOn_eq_singleton h, List.map_singleton, String.ofList_toList]

/-- The entries of a list come back, each split at its own commas. -/
theorem splitComma_intercalate {entries : List String} (h : entries ≠ []) :
    splitComma (String.intercalate "," entries) = entries.flatMap splitComma := by
  induction entries with
  | nil => exact absurd rfl h
  | cons entry rest ih =>
    by_cases hrest : rest = []
    · subst hrest
      rw [String.intercalate_singleton, List.flatMap_singleton]
    · rw [String.intercalate_cons_of_ne_nil hrest, splitComma_append, ih hrest, List.flatMap_cons]

theorem flatMap_splitComma {entries : List String} (h : ∀ entry ∈ entries, ',' ∉ entry.toList) :
    entries.flatMap splitComma = entries := by
  induction entries with
  | nil => rfl
  | cons entry rest ih =>
    rw [List.flatMap_cons, splitComma_entry (h entry List.mem_cons_self),
      ih fun e he => h e (List.mem_cons_of_mem _ he)]
    rfl

/-! ## §4. The client. -/

namespace Server
variable {env : Platform} {s : Server}

/-- An entry of the chain that names a trusted proxy, blanks around it or not. -/
structure TrustedEntry (env : Platform) (s : Server) (entry : String) : Prop where
  single : ',' ∉ entry.toList
  trusted : ∃ ip, env.parseIp (trimSpace entry) = some ip ∧ s.ipTrusted ip = true

/-- An entry of the chain that names an address which is no trusted proxy. -/
structure ClientEntry (env : Platform) (s : Server) (entry : String) (ip : IpAddress) : Prop where
  single : ',' ∉ entry.toList
  valid : env.parseIp (trimSpace entry) = some ip
  untrusted : s.ipTrusted ip = false

theorem untrustedEntry_trusted {entry : String} (h : TrustedEntry env s entry) :
    s.untrustedEntry env entry = none := by
  obtain ⟨ip, hvalid, htrusted⟩ := h.trusted
  unfold untrustedEntry
  rw [hvalid]
  simp [Option.filter, htrusted]

theorem untrustedEntry_client {entry : String} {ip : IpAddress} (h : ClientEntry env s entry ip) :
    s.untrustedEntry env entry = some ip := by
  unfold untrustedEntry
  rw [h.valid]
  simp [Option.filter, h.untrusted]

/-- The search from the end stops at the client. -/
theorem findSome_chain {before after : List String} {entry : String} {ip : IpAddress}
    (hentry : ClientEntry env s entry ip) (hafter : ∀ e ∈ after, TrustedEntry env s e) :
    (before ++ entry :: after).reverse.findSome? (s.untrustedEntry env) = some ip := by
  have hskipped : after.reverse.findSome? (s.untrustedEntry env) = none := by
    rw [List.findSome?_eq_none_iff]
    intro e he
    exact untrustedEntry_trusted (hafter e (List.mem_reverse.mp he))
  -- first what stands after the client, then the client, and never what stands before
  rw [List.reverse_append, List.reverse_cons, List.findSome?_append, List.findSome?_append, hskipped,
    Option.none_or, List.findSome?_singleton, untrustedEntry_client hentry]
  rfl

/-- **A peer that is no trusted proxy is the client**, whatever the header says. -/
theorem clientIP_of_untrusted {r : Request} (h : ¬s.PeerTrusted env r) :
    s.clientIP env r = peerAddress r := by
  unfold clientIP
  cases hremote : env.parseIp (peerAddress r) with
  | none => rfl
  | some remote =>
    have huntrusted : s.ipTrusted remote = false := by
      by_contra htrusted
      exact h ⟨remote, hremote, Bool.not_eq_false _ ▸ htrusted⟩
    simp [huntrusted]

/-- Behind a trusted proxy the client is the last entry that is no trusted proxy. -/
theorem clientIP_of_chain {r : Request} (h : s.PeerTrusted env r) {before after : List String} {entry : String}
    {ip : IpAddress} (hentry : ClientEntry env s entry ip) (hafter : ∀ e ∈ after, TrustedEntry env s e)
    (hheader : r.get "X-Forwarded-For" = String.intercalate "," (before ++ entry :: after)) :
    s.clientIP env r = env.ipString ip := by
  obtain ⟨remote, hremote, htrusted⟩ := h
  have hchain : splitComma (r.get "X-Forwarded-For") = before.flatMap splitComma ++ entry :: after := by
    have hsingle : ∀ e ∈ entry :: after, ',' ∉ e.toList := by
      intro e he
      rcases List.mem_cons.mp he with rfl | he
      · exact hentry.single
      · exact (hafter e he).single
    rw [hheader, splitComma_intercalate (by simp), List.flatMap_append, flatMap_splitComma hsingle]
  unfold clientIP
  rw [hremote, hchain, findSome_chain hentry hafter]
  simp [htrusted]

/-- Only the first line of the header is read: more lines change nothing. -/
theorem clientIP_of_first_line {line : String} {more : List String} {r r' : Request}
    (hpeer : r'.remoteAddr = r.remoteAddr) (h : r.header.lookup "X-Forwarded-For" = some [line])
    (h' : r'.header.lookup "X-Forwarded-For" = some (line :: more)) : s.clientIP env r' = s.clientIP env r := by
  have hheader : r'.get "X-Forwarded-For" = r.get "X-Forwarded-For" := by
    unfold Request.get
    rw [h, h']
    rfl
  have hsame : peerAddress r' = peerAddress r := by
    unfold peerAddress
    rw [hpeer]
  unfold clientIP
  rw [hheader, hsame]

/-- **THE CLIENT'S ADDRESS CANNOT BE FORGED.**  The header of a request whose peer is
no trusted proxy has no influence; behind one, whatever entries come first, the client
is the last one that is no trusted proxy, in canonical form. -/
theorem clientIP_unforgeable (env : Platform) (s : Server) (r : Request) :
    (¬s.PeerTrusted env r → ∀ r' : Request, r'.remoteAddr = r.remoteAddr → s.clientIP env r' = s.clientIP env r)
      ∧ (s.PeerTrusted env r → ∀ (forged : List String) (entry : String) (ip : IpAddress) (after : List String),
          ClientEntry env s entry ip → (∀ e ∈ after, TrustedEntry env s e)
            → r.get "X-Forwarded-For" = String.intercalate "," (forged ++ entry :: after)
            → s.clientIP env r = env.ipString ip) := by
  constructor
  · intro h r' hpeer
    have hsame : peerAddress r' = peerAddress r := by
      unfold peerAddress
      rw [hpeer]
    have h' : ¬s.PeerTrusted env r' := by
      unfold PeerTrusted
      rw [hsame]
      exact h
    rw [clientIP_of_untrusted h, clientIP_of_untrusted h', hsame]
  · intro h forged entry ip after hentry hafter hheader
    exact clientIP_of_chain h hentry hafter hheader

end Server

/-! ## §5. A proxy in `10.0.0.0/8`. -/

namespace Sample

/-- One part of a dotted address. -/
def parseOctet (digits : List Char) : Option Nat :=
  if digits = [] ∨ 3 < digits.length ∨ !digits.all Char.isDigit ∨ (1 < digits.length ∧ digits.head? = some '0') then
    none
  else
    let n := digits.foldl (fun n c => n * 10 + (c.toNat - 48)) 0
    if n ≤ 255 then some n else none

/-- `net.ParseIP` on IPv4 addresses. -/
def parseIPv4 (text : String) : Option IpAddress :=
  match (text.toList.splitOn '.').map parseOctet with
  | [some a, some b, some c, some d] =>
    let bits := ((a * 256 + b) * 256 + c) * 256 + d
    if h : bits < 2 ^ IpFamily.width .v4 then some ⟨.v4, bits, h⟩ else none
  | _ => none

/-- `IP.String` on IPv4 addresses. -/
def ipv4String (ip : IpAddress) : String :=
  String.intercalate "." ([24, 16, 8, 0].map fun shift => toString (ip.bits / 2 ^ shift % 256))

/-- A platform that reads and writes IPv4 addresses. -/
def ipv4Platform : Platform := { Momento.Sample.platform with parseIp := parseIPv4, ipString := ipv4String }

/-- `10.0.0.0/8` is trusted. -/
def behindProxy : Server := ⟨[⟨.v4, 10 * 256 ^ 3, 8⟩]⟩

def forwarded : Request :=
  ⟨"10.0.0.1:4711", [("X-Forwarded-For", ["198.51.100.7, [2001:db8::1]:80,,203.0.113.9 , 10.0.0.2"])]⟩

/-- What the client itself wrote into the header does not count. -/
theorem clientIP_unforgeable_forwarded : behindProxy.clientIP ipv4Platform forwarded = "203.0.113.9" := by
  have hparse : ipv4Platform.parseIp = parseIPv4 := by simp only [ipv4Platform]
  have htrusted : behindProxy.PeerTrusted ipv4Platform forwarded := by
    unfold Server.PeerTrusted
    rw [hparse]
    exact ⟨⟨.v4, 167772161, by decide⟩, by decide, by decide⟩
  have hentry : Server.ClientEntry ipv4Platform behindProxy "203.0.113.9 " ⟨.v4, 3405803785, by decide⟩ :=
    ⟨by decide, by rw [hparse]; decide, by decide⟩
  have hafter : ∀ e ∈ [" 10.0.0.2"], Server.TrustedEntry ipv4Platform behindProxy e := by
    intro e he
    obtain rfl := List.mem_singleton.mp he
    refine ⟨by decide, ⟨.v4, 167772162, by decide⟩, ?_, by decide⟩
    rw [hparse]
    decide
  have hclient := (Server.clientIP_unforgeable ipv4Platform behindProxy forwarded).2 htrusted
    ["198.51.100.7", " [2001:db8::1]:80", ""] "203.0.113.9 " ⟨.v4, 3405803785, by decide⟩ [" 10.0.0.2"]
    hentry hafter rfl
  rw [hclient]
  simp only [ipv4Platform]
  decide

end Sample

end Momento.Http
