import CyberAccountant.Security.RateLimit
import Mathlib.Algebra.Group.Nat.Defs
import Mathlib.Data.List.DropRight

/-! The address that a request is counted under.  Behind trusted proxies it stands in `X-Forwarded-For`, to which each
proxy appends the address it saw; what stands in front of that the client has written.  Values of headers are bytes, and
a character stands for a byte. -/

namespace CyberAccountant.Security.RateLimit

/-! ### The source -/

/-- `kTrimChars`. -/
def isTrimChar (c : Char) : Bool := c = ' ' || c = '\t' || c = '\r' || c = '\n'

/-- `Utils::Strings::trim`. -/
def trim (s : List Char) : List Char := (s.dropWhile isTrimChar).rdropWhile isTrimChar

/-- The loop over the commas, on the text from `start` on. -/
def collectHops (rest : List Char) : List (List Char) :=
  let tok := rest.takeWhile (· != ',')
  let hop := trim tok
  let hops := if hop ≠ [] then [hop] else []
  match _hAfter : rest.dropWhile (· != ',') with
  | [] => hops
  | _ :: after => hops ++ collectHops after
termination_by rest.length
decreasing_by
  have hLength := (List.dropWhile_suffix (· != ',') (l := rest)).length_le
  rw [_hAfter, List.length_cons] at hLength
  omega

/-- `static_cast<int>` of a size. -/
def toInt (n : Nat) : Int := (n : Int).bmod (2 ^ 32)

/-- The entry `trustedProxyCount` from the end, if there is an entry. -/
def forwardedHop (xff : String) (trustedProxyCount : Int) : Option String :=
  if xff = "" then none
  else
    let hops := collectHops xff.toList
    if hops = [] then none
    else
      let idx := toInt hops.length - trustedProxyCount
      -- fewer hops than trusted proxies: the leftmost there is
      let idx := if idx < 0 then 0 else idx
      some (String.ofList (hops.getD idx.toNat []))

/-- What is read of a request; a header that is not there is empty. -/
structure Request where
  realIp : String
  forwardedFor : String
  peer : String
  /-- The subject of the principal. -/
  subject : Option String

def clientIp (req : Request) (trustProxy : Bool) (trustedProxyCount : Int) : String :=
  if trustProxy then
    if req.realIp ≠ "" then req.realIp
    else (forwardedHop req.forwardedFor trustedProxyCount).getD req.peer
  else req.peer

inductive Scope where
  | ip
  | ipOrUser
  deriving DecidableEq

structure ProxyConfig where
  scope : Scope
  trustProxy : Bool
  trustedProxyCount : Int

def identityFor (req : Request) (cfg : ProxyConfig) : String :=
  let ip := clientIp req cfg.trustProxy cfg.trustedProxyCount
  let user := req.subject.getD ""
  if cfg.scope = .ip ∨ user = "" then "ip:" ++ ip else "user:" ++ user

def ipIdentity (req : Request) (cfg : ProxyConfig) : String :=
  "ip:" ++ clientIp req cfg.trustProxy cfg.trustedProxyCount

/-! ### The proxies -/

/-- A trusted proxy: the address it saw, and the blanks it writes behind the comma. -/
structure Proxy where
  address : String
  gap : String
  noComma : ',' ∉ address.toList
  named : trim address.toList ≠ []
  blank : ∀ c ∈ gap.toList, isTrimChar c

def Proxy.append (p : Proxy) (header : String) : String :=
  if header = "" then p.address else header ++ "," ++ p.gap ++ p.address

/-- The header once the proxies have appended to what the client wrote, the proxy next to the client first. -/
def forwarded (proxies : List Proxy) (written : String) : String :=
  proxies.foldl (fun header p => p.append header) written

def Request.forwardedBy (req : Request) (proxies : List Proxy) (written : String) : Request :=
  { req with forwardedFor := forwarded proxies written }

/-- The server that parses the requests. It answers those with a longer header itself (64 KiB), far below the largest
`int`. -/
structure WebServer where
  headerLimit : Nat
  headerLimit_lt : headerLimit < 2 ^ 31

/-! ### The entries of the header -/

theorem not_mem_takeWhile {c : Char} (rest : List Char) : c ∉ rest.takeWhile (· != c) := by
  intro hMem
  have hOther := List.all_eq_true.mp (List.all_takeWhile (p := (· != c)) (l := rest)) c hMem
  simp at hOther

/-- The loop finds the texts between the commas that are not blank. -/
theorem collectHops_eq (rest : List Char) :
    collectHops rest = ((rest.splitOn ',').map trim).filter (· ≠ []) := by
  induction rest using collectHops.induct with
  | case1 rest hEnd =>
    have hWhole : rest.takeWhile (· != ',') = rest := by
      have hJoin := List.takeWhile_append_dropWhile (p := (· != ',')) (l := rest)
      rwa [hEnd, List.append_nil] at hJoin
    have hNone : ',' ∉ rest := hWhole ▸ not_mem_takeWhile rest
    rw [collectHops, hEnd, hWhole, List.splitOn_eq_singleton hNone, List.map_singleton, List.filter_singleton]
    simp
  | case2 rest head after hAfter ih =>
    have hHead : head = ',' := by
      have hStop := List.head?_dropWhile_not (· != ',') rest
      rw [hAfter] at hStop
      simpa using hStop
    have hRest : rest = rest.takeWhile (· != ',') ++ ',' :: after := by
      have hJoin := List.takeWhile_append_dropWhile (p := (· != ',')) (l := rest)
      rw [hAfter, hHead] at hJoin
      exact hJoin.symm
    have hSplit : rest.splitOn ',' = rest.takeWhile (· != ',') :: after.splitOn ',' := by
      conv_lhs => rw [hRest]
      exact List.splitOn_append_cons_self_of_not_mem (not_mem_takeWhile rest) after
    rw [collectHops, hAfter, hSplit, List.map_cons, List.filter_cons]
    simp only [ih]
    by_cases hBlank : trim (rest.takeWhile (· != ',')) = []
    · simp [hBlank]
    · simp [hBlank]

theorem collectHops_append_comma (xs ys : List Char) :
    collectHops (xs ++ ',' :: ys) = collectHops xs ++ collectHops ys := by
  simp only [collectHops_eq, List.splitOn_append_cons_self, List.map_append, List.filter_append]

theorem collectHops_single {cs : List Char} (hComma : ',' ∉ cs) (hNamed : trim cs ≠ []) :
    collectHops cs = [trim cs] := by
  rw [collectHops_eq, List.splitOn_eq_singleton hComma, List.map_singleton, List.filter_singleton]
  simp [hNamed]

/-- Every entry has a character of its own in the header. -/
theorem length_collectHops (rest : List Char) : (collectHops rest).length ≤ rest.length := by
  have hToken : ∀ tok : List Char, (if trim tok ≠ [] then [trim tok] else []).length ≤ tok.length := by
    intro tok
    cases tok with
    | nil => simp [trim]
    | cons c tok =>
      split
      · simp
      · exact Nat.zero_le _
  induction rest using collectHops.induct with
  | case1 rest hEnd =>
    have hLength := (List.takeWhile_prefix (l := rest) (· != ',')).length_le
    rw [collectHops, hEnd]
    exact (hToken _).trans hLength
  | case2 rest head after hAfter ih =>
    have hJoin := congrArg List.length (List.takeWhile_append_dropWhile (p := (· != ',')) (l := rest))
    rw [hAfter, List.length_append, List.length_cons] at hJoin
    have hHere := hToken (rest.takeWhile (· != ','))
    rw [collectHops, hAfter]
    simp only [List.length_append]
    omega

theorem trim_append_of_blank {gap cs : List Char} (h : ∀ c ∈ gap, isTrimChar c) : trim (gap ++ cs) = trim cs := by
  rw [trim, List.dropWhile_append_of_pos h, trim]

/-- A proxy adds the address it saw behind the entries that are there. -/
theorem collectHops_append (p : Proxy) (header : String) :
    collectHops (p.append header).toList = collectHops header.toList ++ [trim p.address.toList] := by
  have hTrim : trim (p.gap.toList ++ p.address.toList) = trim p.address.toList := trim_append_of_blank p.blank
  unfold Proxy.append
  split
  · rename_i hEmpty
    rw [hEmpty, collectHops_single p.noComma p.named, collectHops_eq]
    rfl
  · have hComma : ',' ∉ p.gap.toList ++ p.address.toList := by
      rw [List.mem_append, not_or]
      exact ⟨fun hMem => absurd (p.blank ',' hMem) (by decide), p.noComma⟩
    have hText : (header ++ "," ++ p.gap ++ p.address).toList =
        header.toList ++ ',' :: (p.gap.toList ++ p.address.toList) := by
      simp
    rw [hText, collectHops_append_comma, collectHops_single hComma (hTrim.symm ▸ p.named), hTrim]

theorem collectHops_forwarded (proxies : List Proxy) (written : String) :
    collectHops (forwarded proxies written).toList =
      collectHops written.toList ++ proxies.map fun p => trim p.address.toList := by
  induction proxies generalizing written with
  | nil => simp [forwarded]
  | cons p rest ih =>
    have hNext : forwarded (p :: rest) written = forwarded rest (p.append written) := rfl
    rw [hNext, ih, collectHops_append, List.append_assoc]
    rfl

theorem toInt_of_lt {n : Nat} (h : n < 2 ^ 31) : toInt n = n := by
  unfold toInt
  exact Int.bmod_eq_of_le (by omega) (by omega)

/-! ### The address -/

/-- The entry that is found is the address that the proxy next to the client saw. -/
theorem forwardedHop_forwarded {server : WebServer} {first : Proxy} {rest : List Proxy} {written : String}
    (hFits : (forwarded (first :: rest) written).length ≤ server.headerLimit) :
    forwardedHop (forwarded (first :: rest) written) ((first :: rest).length : Nat) =
      some (String.ofList (trim first.address.toList)) := by
  have hHops := collectHops_forwarded (first :: rest) written
  have hCount : (collectHops (forwarded (first :: rest) written).toList).length < 2 ^ 31 := by
    have hLimit := server.headerLimit_lt
    have hFew := length_collectHops (forwarded (first :: rest) written).toList
    rw [String.length_toList] at hFew
    omega
  have hIdx : toInt (collectHops (forwarded (first :: rest) written).toList).length - ((first :: rest).length : Nat) =
      (collectHops written.toList).length := by
    rw [toInt_of_lt hCount, hHops, List.length_append, List.length_map]
    omega
  have hNonempty : forwarded (first :: rest) written ≠ "" := by
    intro hEmpty
    rw [hEmpty] at hHops
    have hLength := congrArg List.length hHops
    have hNone := length_collectHops "".toList
    rw [hLength, List.length_append, List.map_cons, List.length_cons] at hNone
    simp at hNone
  have hSome : collectHops (forwarded (first :: rest) written).toList ≠ [] := by
    rw [hHops]
    simp
  rw [forwardedHop, if_neg hNonempty]
  simp only [if_neg hSome, hIdx]
  rw [if_neg (by omega), Int.toNat_natCast, hHops, List.map_cons, List.getD_eq_getElem?_getD,
    List.getElem?_append_right (Nat.le_refl _)]
  simp

/-- Behind the trusted proxies a request has the address that the proxy next to the client saw. -/
theorem clientIp_forwardedBy {server : WebServer} {req : Request} (hReal : req.realIp = "") {first : Proxy}
    {rest : List Proxy} {written : String}
    (hFits : (forwarded (first :: rest) written).length ≤ server.headerLimit) :
    clientIp (req.forwardedBy (first :: rest) written) true ((first :: rest).length : Nat) =
      String.ofList (trim first.address.toList) := by
  have hHop := forwardedHop_forwarded hFits
  simp only [clientIp, Request.forwardedBy, hReal, hHop, Option.getD_some]
  simp

/-- What a client writes in front of what the trusted proxies append decides neither the address of its requests nor
their buckets. -/
theorem buckets_same (server : WebServer) (cfg : ProxyConfig) (req : Request) (proxies : List Proxy)
    (written written' : String) (hTrust : cfg.trustProxy = true) (hSome : 1 ≤ proxies.length)
    (hCount : cfg.trustedProxyCount = (proxies.length : Nat)) (hReal : req.realIp = "")
    (hFits : (forwarded proxies written).length ≤ server.headerLimit)
    (hFits' : (forwarded proxies written').length ≤ server.headerLimit) :
    clientIp (req.forwardedBy proxies written) cfg.trustProxy cfg.trustedProxyCount =
        clientIp (req.forwardedBy proxies written') cfg.trustProxy cfg.trustedProxyCount ∧
      ∀ tier : Tier,
        tier.key (identityFor (req.forwardedBy proxies written) cfg) =
            tier.key (identityFor (req.forwardedBy proxies written') cfg) ∧
          tier.key (ipIdentity (req.forwardedBy proxies written) cfg) =
            tier.key (ipIdentity (req.forwardedBy proxies written') cfg) := by
  cases proxies with
  | nil => exact absurd hSome (by decide)
  | cons first rest =>
    have hSame : clientIp (req.forwardedBy (first :: rest) written) cfg.trustProxy cfg.trustedProxyCount =
        clientIp (req.forwardedBy (first :: rest) written') cfg.trustProxy cfg.trustedProxyCount := by
      rw [hTrust, hCount, clientIp_forwardedBy hReal hFits, clientIp_forwardedBy hReal hFits']
    refine ⟨hSame, fun tier => ⟨?_, ?_⟩⟩
    · simp only [identityFor, hSame]
      rfl
    · simp only [ipIdentity, hSame]

/-- The proxy at the edge and the one in front of the API. -/
def edge : Proxy := ⟨"203.0.113.7", " ", by decide, by decide +kernel, List.all_eq_true.mp (by decide)⟩

def ingress : Proxy := ⟨"10.0.0.2", " ", by decide, by decide +kernel, List.all_eq_true.mp (by decide)⟩

theorem buckets_same_spoofed :
    clientIp ((⟨"", "", "10.0.0.3", none⟩ : Request).forwardedBy [edge, ingress] "") true 2 =
      clientIp ((⟨"", "", "10.0.0.3", none⟩ : Request).forwardedBy [edge, ingress] "1.2.3.4, ,x,,") true 2 :=
  (buckets_same ⟨65536, by decide⟩ ⟨.ip, true, 2⟩ ⟨"", "", "10.0.0.3", none⟩ [edge, ingress] "" "1.2.3.4, ,x,,"
    rfl (by decide) rfl rfl (by decide +kernel) (by decide +kernel)).1

end CyberAccountant.Security.RateLimit
