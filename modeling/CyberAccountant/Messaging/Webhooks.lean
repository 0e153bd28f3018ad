import CyberAccountant.Library.Decimals
import CyberAccountant.Library.Program
import CyberAccountant.Library.Url
import CyberAccountant.Security.Jwt

/-! The delivery of webhooks: the worker posts an event to the URL of a subscriber unless the URL's host is an internal
one, which it tells from the text. -/

namespace CyberAccountant.Webhooks

open CyberAccountant.Library CyberAccountant.Security.Jwt

/-! ### The host of a URL -/

/-- What stands in front of the first `://` and behind it. -/
def findScheme : List Char → Option (List Char × List Char)
  | [] => none
  | c :: cs =>
    if "://".toList <+: c :: cs then some ([], (c :: cs).drop 3)
    else (findScheme cs).map fun parts => (c :: parts.1, parts.2)

/-- The host in small letters; empty when the scheme is another. -/
def urlHost (url : String) : List Char :=
  match findScheme url.toList with
  | none => []
  | some (proto, rest) =>
    if proto ≠ "http".toList ∧ proto ≠ "https".toList then []
    else (rest.takeWhile fun c => !(['/', ':', '?', '#'].contains c)).map Char.toLower

/-- `std::atoi`: blanks, a sign and digits, as a `long` at its ends, cast to `int`. -/
def atoi (text : List Char) : Int :=
  let (negative, digits) := readSign (text.dropWhile isSpace)
  let n : Int := Nat.ofDigitChars 10 (digits.takeWhile Char.isDigit) 0
  let long := max (-2 ^ 63) (min (if negative then -n else n) (2 ^ 63 - 1))
  long.bmod (2 ^ 32)

def hostIsBlocked (host : List Char) : Bool :=
  if host = [] ∨ host = "localhost".toList then true
  else if "127.".toList <+: host ∨ "10.".toList <+: host ∨ "192.168.".toList <+: host ∨ "169.254.".toList <+: host ∨
      host = "::1".toList ∨ host = "[::1]".toList then true
  else if "172.".toList <+: host then
    -- 172.16.0.0/12, if there is another dot
    let rest := host.drop 4
    if '.' ∈ rest then
      let second := atoi (rest.takeWhile (· != '.'))
      decide (16 ≤ second ∧ second ≤ 31)
    else false
  else false

/-! ### The job -/

/-- The text of a string up to its first zero, as the functions of C read it. -/
def cStr (s : String) : String := String.ofList (Url.cText s.toList)

/-- What the JSON library and the cryptography do. -/
structure Primitives where
  dump : Json → String
  /-- The HMAC-SHA256 of a body under a secret, in hexadecimal digits. -/
  hmacSha256Hex : String → String → String

structure Delivery where
  url : String
  event : String
  body : String
  secret : String

def readDelivery (lib : Primitives) (payload : Json) : Except TypeError Delivery := do
  let url ← value payload "url" ""
  let event ← value payload "event" ""
  let body := ((Json.member payload.members "body").map lib.dump).getD "{}"
  let secret ← value payload "secret" ""
  pure ⟨url, event, body, secret⟩

/-- A request as the client is given it. -/
structure Post where
  url : String
  body : String
  headers : List String

def Delivery.post (lib : Primitives) (d : Delivery) : Post where
  url := cStr d.url
  body := d.body
  headers :=
    ["Content-Type: application/json", cStr ("X-Webhook-Event: " ++ d.event)] ++
      if d.secret = "" then [] else ["X-Webhook-Signature: sha256=" ++ lib.hmacSha256Hex d.secret d.body]

/-- The calls of the client: a handle, and the request itself. -/
inductive ClientCall where
  | easyInit
  | perform (post : Post)

/-- Whether there is a handle; the status of the response, or what went wrong on the way. -/
def ClientCall.Reply : ClientCall → Type
  | .easyInit => Bool
  | .perform _ => Except String Int

inductive Failure where
  | value (e : TypeError)
  | runtime (text : String)

def processJob (lib : Primitives) (payload : Json) :
    Program ClientCall ClientCall.Reply (Except Failure Json) :=
  match readDelivery lib payload with
  | .error e => .done (.error (.value e))
  | .ok d =>
    let host := urlHost d.url
    if host = [] then .done (.error (.runtime ("webhook: url is not http(s): " ++ d.url)))
    else if hostIsBlocked host then
      .done (.error (.runtime ("webhook: refusing to POST to internal host: " ++ String.ofList host)))
    else
      .call .easyInit fun (ready : Bool) =>
        if ready then
          .call (.perform (d.post lib)) fun (outcome : Except String Int) =>
            match outcome with
            | .error text => .done (.error (.runtime ("webhook: transport error: " ++ text)))
            | .ok status =>
              if status < 200 ∨ 300 ≤ status then
                .done (.error (.runtime
                  ("webhook: non-2xx response (" ++ toString status ++ ") from " ++ String.ofList host)))
              else .done (.ok (.obj [("delivered", .bool true), ("event", .str d.event), ("status", .int status)]))
        else .done (.error (.runtime "webhook: curl_easy_init failed"))

/-! ### Internal hosts -/

/-- The networks that are not to be reached, by the first two numbers. -/
def internalNet (a b : Nat) : Bool :=
  a = 127 || a = 10 || (a = 172 && 16 ≤ b && b ≤ 31) || (a = 192 && b = 168) || (a = 169 && b = 254)

inductive InternalHost : Url.Host → Prop where
  | localhost : InternalHost (.name "localhost".toList)
  | loopback : InternalHost (.literal "::1".toList)
  | address {a b c d : Nat} (hNet : internalNet a b = true) (hBytes : a < 256 ∧ b < 256 ∧ c < 256 ∧ d < 256) :
      InternalHost (.name (Url.dotted a b c d))

/-- A URL of one of the two schemes, in small or capital letters, whose host is internal. -/
def Internal (url : String) : Prop :=
  ∃ reading, Url.read url.toList = some reading ∧
    (reading.scheme = "http".toList ∨ reading.scheme = "https".toList) ∧ InternalHost reading.host

/-- The job ends by throwing before it has called the client. -/
def ThrowsFirst (job : Program ClientCall ClientCall.Reply (Except Failure Json)) : Prop :=
  ∃ failure, job = .done (.error failure)

/-- An internal URL is refused, and the host that the guard finds in it, if any, is the one the client reads. -/
def Guarded (lib : Primitives) (client : Url.Client) (url : String) : Prop :=
  Internal url →
    (∀ payload, value payload "url" "" = .ok url → ThrowsFirst (processJob lib payload)) ∧
    ∀ connection, client.connect (cStr url).toList = some connection →
      urlHost url = [] ∨ connection.host.text = urlHost url

/-! ### What the guard finds -/

theorem findScheme_append {scheme : List Char} (h : ':' ∉ scheme) (rest : List Char) :
    findScheme (scheme ++ ':' :: '/' :: '/' :: rest) = some (scheme, rest) := by
  induction scheme with
  | nil => simp [findScheme]
  | cons c scheme ih =>
    rw [List.mem_cons, not_or] at h
    have hColon : ¬"://".toList <+: c :: (scheme ++ ':' :: '/' :: '/' :: rest) := fun hPrefix =>
      h.1 (List.cons_prefix_cons.mp hPrefix).1
    rw [List.cons_append, findScheme, if_neg hColon, ih h.2]
    rfl

/-- The text in front of the first colon of an authority, in small letters. -/
def front (rest : List Char) : List Char := ((Url.authority rest).takeWhile (· != ':')).map Char.toLower

theorem urlHost_eq {url : String} {scheme rest : List Char} (h : url.toList = scheme ++ ':' :: '/' :: '/' :: rest)
    (hScheme : scheme = "http".toList ∨ scheme = "https".toList) : urlHost url = front rest := by
  have hColon : ':' ∉ scheme := by
    rcases hScheme with rfl | rfl
    · decide
    · decide
  have hKnown : ¬(scheme ≠ "http".toList ∧ scheme ≠ "https".toList) := by
    rintro ⟨hHttp, hHttps⟩
    rcases hScheme with hHere | hHere
    · exact hHttp hHere
    · exact hHttps hHere
  have hStop : (fun c : Char => !(['/', ':', '?', '#'].contains c)) =
      fun c => decide ((c != ':') = true ∧ (!(['/', '?', '#'].contains c)) = true) := by
    funext c
    by_cases hc : c = ':'
    · simp [hc]
    · simp [hc]
  rw [urlHost, h, findScheme_append hColon]
  simp only [if_neg hKnown]
  rw [front, Url.authority, List.takeWhile_takeWhile, hStop]

theorem findScheme_eq {text scheme rest : List Char} (h : findScheme text = some (scheme, rest)) :
    text = scheme ++ ':' :: '/' :: '/' :: rest := by
  induction text generalizing scheme with
  | nil => cases h
  | cons c text ih =>
    unfold findScheme at h
    split at h
    · rename_i hPrefix
      obtain ⟨behind, hBehind⟩ := hPrefix
      rw [← hBehind] at h ⊢
      cases h
      rfl
    · obtain ⟨⟨before, behind⟩, hParts, hSame⟩ := Option.map_eq_some_iff.mp h
      cases hSame
      rw [ih hParts, List.cons_append]

/-- A scheme with capital letters is another scheme to the guard. -/
theorem urlHost_of_other {url : String} (h : ∀ scheme rest, url.toList = scheme ++ ':' :: '/' :: '/' :: rest →
    ¬(scheme = "http".toList ∨ scheme = "https".toList)) : urlHost url = [] := by
  unfold urlHost
  split
  · rfl
  · rename_i proto rest hParts
    exact if_pos (not_or.mp (h proto rest (findScheme_eq hParts)))

theorem atoi_toDigits {n : Nat} (h : n < 256) : atoi (Nat.toDigits 10 n) = n := by
  have hDigits : ∀ c ∈ Nat.toDigits 10 n, c.isDigit := fun c hc =>
    Nat.isDigit_of_mem_toDigits (by decide) (by decide) hc
  have hSpace : (Nat.toDigits 10 n).dropWhile isSpace = Nat.toDigits 10 n := by
    cases hText : Nat.toDigits 10 n with
    | nil => rfl
    | cons c cs =>
      have hc : c.isDigit := hDigits c (hText ▸ List.mem_cons_self)
      rw [List.dropWhile_cons, if_neg (by simp [not_isSpace (.inl hc)])]
  have hSign : readSign (Nat.toDigits 10 n) = (false, Nat.toDigits 10 n) := by
    cases hText : Nat.toDigits 10 n with
    | nil => rfl
    | cons c cs => exact readSign_of_digit (hDigits c (hText ▸ List.mem_cons_self))
  have hValue : Nat.ofDigitChars 10 (Nat.toDigits 10 n) 0 = n := Nat.ofDigitChars_toDigits (by decide) (by decide)
  simp only [atoi, hSpace, hSign, List.takeWhile_eq_self_iff.mpr hDigits, hValue]
  rw [if_neg (by decide), min_eq_left (by omega), max_eq_right (by omega)]
  exact Int.bmod_eq_of_le (by omega) (by omega)

theorem hostIsBlocked_dotted {a b c d : Nat} (hNet : internalNet a b = true) (hb : b < 256) :
    hostIsBlocked (Url.dotted a b c d) = true := by
  rw [Url.dotted_eq]
  simp only [internalNet, Bool.or_eq_true, Bool.and_eq_true, decide_eq_true_eq] at hNet
  rcases hNet with (((rfl | rfl) | ⟨⟨rfl, hLow⟩, hHigh⟩) | ⟨rfl, rfl⟩) | ⟨rfl, rfl⟩
  · rw [show Nat.toDigits 10 127 = ['1', '2', '7'] from rfl]
    simp [hostIsBlocked]
  · rw [show Nat.toDigits 10 10 = ['1', '0'] from rfl]
    simp [hostIsBlocked]
  · rw [show Nat.toDigits 10 172 = ['1', '7', '2'] from rfl]
    have hDot : '.' ∉ Nat.toDigits 10 b := fun hMem =>
      absurd (Nat.isDigit_of_mem_toDigits (by decide) (by decide) hMem) (by decide)
    have hSecond : (Nat.toDigits 10 b ++ '.' :: (Nat.toDigits 10 c ++ '.' :: Nat.toDigits 10 d)).takeWhile (· != '.') =
        Nat.toDigits 10 b := by
      rw [List.takeWhile_append_of_pos (Url.bne_of_not_mem hDot)]
      simp
    simp only [hostIsBlocked, List.cons_append, List.nil_append, List.drop_succ_cons, List.drop_zero, hSecond,
      atoi_toDigits hb]
    simp
    omega
  · rw [show Nat.toDigits 10 192 = ['1', '9', '2'] from rfl, show Nat.toDigits 10 168 = ['1', '6', '8'] from rfl]
    simp [hostIsBlocked]
  · rw [show Nat.toDigits 10 169 = ['1', '6', '9'] from rfl, show Nat.toDigits 10 254 = ['2', '5', '4'] from rfl]
    simp [hostIsBlocked]

theorem hostIsBlocked_name {text : List Char} (h : InternalHost (.name text)) : hostIsBlocked text = true := by
  cases h with
  | localhost => decide +kernel
  | address hNet hBytes => exact hostIsBlocked_dotted hNet hBytes.2.1

/-! ### What the job does -/

variable {lib : Primitives} {client : Url.Client} {url : String} {payload : Json}

theorem readDelivery_url {d : Delivery} (hUrl : value payload "url" "" = .ok url)
    (h : readDelivery lib payload = .ok d) : d.url = url := by
  rw [readDelivery, hUrl] at h
  cases hEvent : value payload "event" "" with
  | error e =>
    rw [hEvent] at h
    cases h
  | ok event =>
    cases hSecret : value payload "secret" "" with
    | error e =>
      rw [hEvent, hSecret] at h
      cases h
    | ok secret =>
      rw [hEvent, hSecret] at h
      cases h
      rfl

theorem throwsFirst_of_refused (hUrl : value payload "url" "" = .ok url)
    (h : urlHost url = [] ∨ hostIsBlocked (urlHost url)) : ThrowsFirst (processJob lib payload) := by
  unfold processJob
  cases hRead : readDelivery lib payload with
  | error e => exact ⟨_, rfl⟩
  | ok d =>
    simp only [readDelivery_url hUrl hRead]
    split
    · exact ⟨_, rfl⟩
    · rename_i hSome
      rw [if_pos (h.resolve_left hSome)]
      exact ⟨_, rfl⟩

/-- What the guard refuses and the client reads alike is guarded. -/
theorem guarded_of_refused (h : urlHost url = [] ∨ hostIsBlocked (urlHost url))
    (hSame : ∀ connection, client.connect (cStr url).toList = some connection →
      urlHost url = [] ∨ connection.host.text = urlHost url) : Guarded lib client url := by
  intro _
  exact ⟨fun payload hPayload => throwsFirst_of_refused hPayload h, hSame⟩

/-- The payload that has nothing but the URL. -/
def bare (url : String) : Json := .obj [("url", .str url)]

theorem refused_of_throwsFirst (h : ThrowsFirst (processJob lib (bare url))) :
    urlHost url = [] ∨ hostIsBlocked (urlHost url) := by
  obtain ⟨failure, hJob⟩ := h
  by_contra hPasses
  obtain ⟨hSome, hFree⟩ := not_or.mp hPasses
  have hRead : readDelivery lib (bare url) = .ok ⟨url, "", "{}", ""⟩ := rfl
  rw [processJob, hRead] at hJob
  simp only [if_neg hSome, if_neg hFree] at hJob
  cases hJob

/-! ### Where the guard and the client see the same host -/

/-- The host is where the guard looks for it: the job refuses the URL without a look at it, the host is a name behind
the two slashes, or it stands twice in the authority, the first time in front of the first colon. -/
def PlainlyWritten (client : Url.Client) (url : String) (rest : List Char) : Prop :=
  front rest = [] ∨
  ('@' ∉ Url.authority rest ∧ (Url.authority rest).head? ≠ some '[') ∨
  ('@' ∈ Url.authority rest ∧ hostIsBlocked (front rest) ∧
    ((client.connect (cStr url).toList).isSome →
      (Url.read (cStr url).toList).map (fun reading => reading.host.text) = some (front rest)))

variable {scheme rest : List Char} {host : Url.Host}

theorem not_mem_scheme {c : Char} (hc : c.isAlpha = false)
    (hScheme : scheme = "http".toList ∨ scheme = "https".toList) : c ∉ scheme := by
  have hLetters : ∀ d ∈ scheme, d.isAlpha := by
    rcases hScheme with rfl | rfl
    · simp
    · simp
  intro hMem
  rw [hLetters c hMem] at hc
  exact absurd hc (by decide)

/-- The host of an internal URL is read of its authority. -/
theorem readHost_of_internal (h : Internal url) (hUrl : url.toList = scheme ++ ':' :: '/' :: '/' :: rest)
    (hScheme : scheme = "http".toList ∨ scheme = "https".toList) :
    ∃ host, Url.readHost (((Url.authority rest).map Char.toLower).rtakeWhile (· != '@')) = some host ∧
      InternalHost host := by
  obtain ⟨reading, hRead, -, hHost⟩ := h
  rw [hUrl, Url.read_append (not_mem_scheme rfl hScheme)] at hRead
  obtain ⟨host, hSome, rfl⟩ := Option.map_eq_some_iff.mp hRead
  exact ⟨host, hSome, hHost⟩

theorem rtakeWhile_authority (hUser : '@' ∉ Url.authority rest) :
    ((Url.authority rest).map Char.toLower).rtakeWhile (· != '@') = (Url.authority rest).map Char.toLower := by
  have hNone : '@' ∉ (Url.authority rest).map Char.toLower := fun hMem => hUser ((Url.mem_map_toLower rfl).mp hMem)
  exact List.rtakeWhile_eq_self_iff.mpr (Url.bne_of_not_mem hNone)

theorem front_eq (rest : List Char) : front rest = ((Url.authority rest).map Char.toLower).takeWhile (· != ':') := by
  rw [front, Url.takeWhile_map_toLower (Url.bne_toLower rfl)]

/-- Without a user's name and brackets the guard finds the name, and a port behind it. -/
theorem host_of_name (hHost : Url.readHost ((Url.authority rest).map Char.toLower) = some host)
    (hBracket : (Url.authority rest).head? ≠ some '[') :
    host = .name (front rest) ∧
      ∃ port, (Url.authority rest).map Char.toLower = front rest ++ port ∧ Url.isPort port := by
  cases host with
  | literal address =>
    obtain ⟨port, hText⟩ := Url.readHost_literal hHost
    refine absurd ?_ hBracket
    cases hAuthority : Url.authority rest with
    | nil => simp [hAuthority] at hText
    | cons c cs =>
      rw [hAuthority] at hText
      injection hText with hFirst
      rw [Url.toLower_eq rfl hFirst]
      rfl
  | name text =>
    obtain ⟨hClean, port, hText, hPort⟩ := Url.readHost_name hHost
    have hColon : ':' ∉ text := fun hMem => hClean _ hMem (by decide)
    have hEnd : port.takeWhile (· != ':') = [] := by
      rcases Url.isPort_cases hPort with rfl | ⟨digits, rfl, -⟩
      · rfl
      · rfl
    have hFront : front rest = text := by
      rw [front_eq, hText, List.takeWhile_append_of_pos (Url.bne_of_not_mem hColon), hEnd, List.append_nil]
    rw [hFront]
    exact ⟨rfl, port, hText, hPort⟩

/-- Of an address in brackets the guard finds the bracket, and lets it pass. -/
theorem not_blocked_of_bracket (hHost : Url.readHost ((Url.authority rest).map Char.toLower) = some host)
    (hNet : InternalHost host) (hBracket : (Url.authority rest).head? = some '[') : ¬hostIsBlocked (front rest) := by
  obtain ⟨behind, hText⟩ : ∃ behind, (Url.authority rest).map Char.toLower = '[' :: behind := by
    obtain ⟨cs, hCs⟩ := List.head?_eq_some_iff.mp hBracket
    exact ⟨cs.map Char.toLower, by rw [hCs]; rfl⟩
  rw [hText] at hHost
  obtain ⟨address, rfl⟩ := Url.literal_of_bracket hHost
  obtain ⟨port, hWhole⟩ := Url.readHost_literal hHost
  cases hNet
  have hFront : front rest = ['['] := by
    rw [front_eq, hText, hWhole]
    rfl
  rw [hFront]
  decide +kernel

theorem zero_not_mem_internal {text : List Char} (h : InternalHost (.name text)) : Char.ofNat 0 ∉ text := by
  cases h with
  | localhost => decide
  | address hNet hBytes =>
    intro hMem
    rcases Url.mem_dotted hMem with hDot | hDigit
    · exact absurd hDot (by decide)
    · exact absurd hDigit (by decide)

theorem zero_not_mem_port {port : List Char} (h : Url.isPort port) : Char.ofNat 0 ∉ port := by
  rcases Url.isPort_cases h with rfl | ⟨digits, rfl, hDigits⟩
  · simp
  · intro hMem
    rcases List.mem_cons.mp hMem with hColon | hDigit
    · exact absurd hColon (by decide)
    · exact absurd (hDigits _ hDigit) (by decide)

/-- A client reads the name that the guard finds. -/
theorem connect_name {connection : Url.Connection} (hUrl : url.toList = scheme ++ ':' :: '/' :: '/' :: rest)
    (hScheme : scheme = "http".toList ∨ scheme = "https".toList) (hUser : '@' ∉ Url.authority rest)
    (hName : Url.readHost ((Url.authority rest).map Char.toLower) = some (.name (front rest)))
    (hZero : Char.ofNat 0 ∉ Url.authority rest) (h : client.connect (cStr url).toList = some connection) :
    connection.host.text = front rest := by
  obtain ⟨reading, hRead, -, hHost, -⟩ := Url.Client.connect_eq h
  have hColon := not_mem_scheme (c := ':') rfl hScheme
  rw [cStr, String.toList_ofList, hUrl, Url.read_cText hColon (not_mem_scheme rfl hScheme) hZero,
    Url.read_append hColon, rtakeWhile_authority hUser, hName] at hRead
  cases hRead
  rw [← hHost]
  rfl

/-- Where the host is a name behind the slashes, it is refused, and the client would read the same. -/
theorem guarded_of_name (hInternal : Internal url) (hUrl : url.toList = scheme ++ ':' :: '/' :: '/' :: rest)
    (hScheme : scheme = "http".toList ∨ scheme = "https".toList) (hUser : '@' ∉ Url.authority rest)
    (hBracket : (Url.authority rest).head? ≠ some '[') :
    hostIsBlocked (front rest) ∧
      ∀ connection, client.connect (cStr url).toList = some connection → connection.host.text = front rest := by
  obtain ⟨host, hHost, hNet⟩ := readHost_of_internal hInternal hUrl hScheme
  rw [rtakeWhile_authority hUser] at hHost
  obtain ⟨rfl, port, hText, hPort⟩ := host_of_name hHost hBracket
  have hZero : Char.ofNat 0 ∉ Url.authority rest := by
    rw [← Url.mem_map_toLower rfl, hText, List.mem_append, not_or]
    exact ⟨zero_not_mem_internal hNet, zero_not_mem_port hPort⟩
  exact ⟨hostIsBlocked_name hNet, fun connection h => connect_name hUrl hScheme hUser hHost hZero h⟩

/-- What the client reads where it connects. -/
theorem text_of_connect {connection : Url.Connection} (h : client.connect (cStr url).toList = some connection) :
    (Url.read (cStr url).toList).map (fun reading => reading.host.text) = some connection.host.text := by
  obtain ⟨reading, hRead, -, hHost, -⟩ := Url.Client.connect_eq h
  rw [hRead, Option.map_some, hHost]

/-- The job refuses the internal URLs whose host the guard finds in front of the first colon, and no others. -/
theorem internal_refused_iff (lib : Primitives) (client : Url.Client) (url : String) :
    Guarded lib client url ↔
      (Internal url → ∀ scheme rest, url.toList = scheme ++ ':' :: '/' :: '/' :: rest →
        scheme = "http".toList ∨ scheme = "https".toList → PlainlyWritten client url rest) := by
  constructor
  · intro hGuarded hInternal scheme rest hUrl hScheme
    obtain ⟨hThrows, hSame⟩ := hGuarded hInternal
    have hRefused := refused_of_throwsFirst (hThrows (bare url) rfl)
    rw [urlHost_eq hUrl hScheme] at hRefused hSame
    by_cases hNone : front rest = []
    · exact .inl hNone
    · have hBlocked := hRefused.resolve_left hNone
      by_cases hUser : '@' ∈ Url.authority rest
      · refine .inr (.inr ⟨hUser, hBlocked, fun hTaken => ?_⟩)
        obtain ⟨connection, hConnect⟩ := Option.isSome_iff_exists.mp hTaken
        rw [text_of_connect hConnect, (hSame connection hConnect).resolve_left hNone]
      · refine .inr (.inl ⟨hUser, fun hBracket => ?_⟩)
        obtain ⟨host, hHost, hNet⟩ := readHost_of_internal hInternal hUrl hScheme
        rw [rtakeWhile_authority hUser] at hHost
        exact not_blocked_of_bracket hHost hNet hBracket hBlocked
  · intro hPlain hInternal
    by_cases hWritten : ∃ scheme rest, url.toList = scheme ++ ':' :: '/' :: '/' :: rest ∧
        (scheme = "http".toList ∨ scheme = "https".toList)
    · obtain ⟨scheme, rest, hUrl, hScheme⟩ := hWritten
      have hHost := urlHost_eq hUrl hScheme
      rcases hPlain hInternal scheme rest hUrl hScheme with hNone | ⟨hUser, hBracket⟩ | ⟨-, hBlocked, hTaken⟩
      · rw [hNone] at hHost
        exact guarded_of_refused (.inl hHost) (fun _ _ => .inl hHost) hInternal
      · have hRefused : hostIsBlocked (front rest) ∧ ∀ connection,
            client.connect (cStr url).toList = some connection → connection.host.text = front rest :=
          guarded_of_name hInternal hUrl hScheme hUser hBracket
        rw [← hHost] at hRefused
        obtain ⟨hBlocked, hSame⟩ := hRefused
        exact guarded_of_refused (.inr hBlocked) (fun connection h => .inr (hSame connection h)) hInternal
      · rw [← hHost] at hBlocked hTaken
        refine guarded_of_refused (.inr hBlocked) (fun connection hConnect => .inr ?_) hInternal
        have hText := hTaken (Option.isSome_iff_exists.mpr ⟨connection, hConnect⟩)
        rw [text_of_connect hConnect] at hText
        exact Option.some.inj hText
    · have hNone : urlHost url = [] := urlHost_of_other fun scheme rest hUrl hScheme =>
        hWritten ⟨scheme, rest, hUrl, hScheme⟩
      exact guarded_of_refused (.inl hNone) (fun _ _ => .inl hNone) hInternal

/-- A client that connects to addresses in brackets and finds no names. -/
def bracketClient : Url.Client where
  takes _ := true
  nameOf _ := none
  plain_of_nameOf _ _ h := by cases h
  nameOf_of_plain _ _ h := by cases h

theorem loopback_posted :
    Internal "http://[::1]/hook" ∧ urlHost "http://[::1]/hook" = ['['] ∧ hostIsBlocked ['['] = false ∧
      bracketClient.connect (cStr "http://[::1]/hook").toList = some ⟨.literal "::1".toList, "::1".toList⟩ ∧
      ¬Guarded ⟨fun _ => "{}", fun _ _ => ""⟩ bracketClient "http://[::1]/hook" ∧
      ¬Guarded ⟨fun _ => "{}", fun _ _ => ""⟩ bracketClient "http://user@127.0.0.1/hook" := by
  have hBracket : Internal "http://[::1]/hook" :=
    ⟨⟨"http".toList, .literal "::1".toList⟩, by decide +kernel, .inl rfl, .loopback⟩
  have hUser : Internal "http://user@127.0.0.1/hook" :=
    ⟨⟨"http".toList, .name (Url.dotted 127 0 0 1)⟩, by decide +kernel, .inl rfl, .address (by decide) (by decide)⟩
  refine ⟨hBracket, by decide +kernel, by decide +kernel, by decide +kernel, fun hGuarded => ?_, fun hGuarded => ?_⟩
  · have hRefused := refused_of_throwsFirst ((hGuarded hBracket).1 (bare "http://[::1]/hook") rfl)
    exact absurd hRefused (by decide +kernel)
  · have hRefused := refused_of_throwsFirst ((hGuarded hUser).1 (bare "http://user@127.0.0.1/hook") rfl)
    exact absurd hRefused (by decide +kernel)

end CyberAccountant.Webhooks
