import CyberAccountant.Library.Url

/-! The guard of the way out to the model: the agent only calls the proxy inside the cluster, and the address from
the configuration is checked as a text before anything is sent. -/

namespace CyberAccountant.Agent.Egress

open Library

/-! ## The guard -/

/-- The part of `host_of` behind the scheme: cut at the path, the query or the fragment, then behind the user's
name, then in front of the port. -/
def hostIn (rest : List Char) : List Char :=
  let hostport := rest.takeWhile fun c => !(['/', '?', '#'].contains c)
  let hostport := hostport.rtakeWhile (· != '@')
  if ':' ∈ hostport ∧ ']' ∉ hostport then (hostport.rdropWhile (· != ':')).dropLast else hostport

/-- Empty when the scheme is another. -/
def hostOf (url : String) : List Char :=
  let lower := url.toList.map Char.toLower
  if "http://".toList <+: lower then hostIn (lower.drop 7)
  else if "https://".toList <+: lower then hostIn (lower.drop 8)
  else []

def isAllowedHost (host : List Char) : Bool :=
  if host = [] then false
  else if host = "localhost".toList ∨ "127.".toList <+: host ∨ host = "::1".toList ∨ host.head? = some '[' then false
  else if host.all fun c => c.isDigit || c == '.' then false
  else if '.' ∉ host then true
  else if ".svc".toList <:+ host then true
  else decide (".svc.".toList <:+: host)

/-- Why the address is refused; empty when it is not. -/
def refusalReason (url : String) : String :=
  let host := hostOf url
  if host = [] then "адрес модели должен быть http(s): '" ++ url ++ "'"
  else if !isAllowedHost host then
    "агент обязан ходить к модели ТОЛЬКО через прокси внутри кластера, а адрес ведёт на '" ++ String.ofList host ++
      "'. Прокси — граница маскирования персональных данных; прямой адрес отключает её. " ++
      "Допустимы односоставное имя сервиса либо форма с '.svc' " ++
      "(например, guardrails-llm-filter.guardrails.svc.cluster.local): форма 'сервис.namespace' " ++
      "синтаксически неотличима от публичного домена и поэтому не принимается"
  else ""

/-- Why the agent is not ready. -/
def configurationProblem (apiKey baseUrl : String) : String :=
  if apiKey = "" then
    "ключ модели не настроен: положите его в секрет 'api' пространства cyber-accountant " ++
      "под ключом 'anthropic-api-key' и пропишите переменную AGENT_API_KEY"
  else refusalReason baseUrl

/-- A call of the model as far as the network: the problem it is refused for, or the URL it sends the request to. -/
def call (apiKey baseUrl : String) : Except String String :=
  let problem := configurationProblem apiKey baseUrl
  if problem ≠ "" then .error problem else .ok (baseUrl ++ "/v1/messages")

/-- The text that the client reads of a string. -/
def cStr (s : String) : String := String.ofList (Url.cText s.toList)

/-! ## The host that is checked and the host that is read -/

theorem rdropWhile_append_cons {c : Char} {xs ys : List Char} (h : c ∉ ys) :
    (xs ++ c :: ys).rdropWhile (· != c) = xs ++ [c] := by
  have hBehind : c ∉ ys.reverse := fun hMem => h (List.mem_reverse.mp hMem)
  rw [List.rdropWhile, List.reverse_append, List.reverse_cons, List.append_assoc,
    List.dropWhile_append_of_pos (Url.bne_of_not_mem hBehind)]
  simp

/-- In front of a port the guard finds the name that is in front of it. -/
theorem hostIn_name {rest name : List Char}
    (h : Url.readHost ((Url.authority rest).rtakeWhile (· != '@')) = some (.name name)) : hostIn rest = name := by
  obtain ⟨hClean, port, hHostport, hPort⟩ := Url.readHost_name h
  have hColon : ':' ∉ name := fun hMem => hClean _ hMem (by decide)
  have hBracket : ']' ∉ name := fun hMem => hClean _ hMem (by decide)
  simp only [Url.authority] at hHostport
  simp only [hostIn, hHostport]
  rcases Url.isPort_cases hPort with rfl | ⟨digits, rfl, hDigits⟩
  · simp [hColon]
  · have hNone : ∀ {d : Char}, d.isDigit = false → d ∉ digits := by
      intro d hd hMem
      rw [hDigits d hMem] at hd
      simp at hd
    rw [if_pos ⟨by simp, by simp [hBracket, hNone (d := ']') (by decide)]⟩,
      rdropWhile_append_cons (hNone (by decide)), List.dropLast_concat]

/-- An address in brackets is left whole. -/
theorem hostIn_literal {rest address : List Char}
    (h : Url.readHost ((Url.authority rest).rtakeWhile (· != '@')) = some (.literal address)) :
    (hostIn rest).head? = some '[' := by
  obtain ⟨port, hHostport⟩ := Url.readHost_literal h
  simp only [Url.authority] at hHostport
  simp only [hostIn, hHostport]
  simp

theorem hostOf_scheme {url : String} {scheme rest : List Char}
    (hScheme : scheme = "http".toList ∨ scheme = "https".toList)
    (h : url.toList.map Char.toLower = scheme ++ ':' :: '/' :: '/' :: rest) : hostOf url = hostIn rest := by
  rcases hScheme with rfl | rfl
  · simp [hostOf, h]
  · simp [hostOf, h]

/-- Where the guard finds a host, the text starts with one of the two schemes. -/
theorem scheme_of_hostOf {url : String} (h : hostOf url ≠ []) :
    ∃ scheme rest, (scheme = "http".toList ∨ scheme = "https".toList) ∧
      url.toList.map Char.toLower = scheme ++ ':' :: '/' :: '/' :: rest := by
  simp only [hostOf] at h
  split at h
  · rename_i hHttp
    obtain ⟨rest, hRest⟩ := hHttp
    exact ⟨_, rest, .inl rfl, by rw [← hRest]; rfl⟩
  · split at h
    · rename_i hHttps
      obtain ⟨rest, hRest⟩ := hHttps
      exact ⟨_, rest, .inr rfl, by rw [← hRest]; rfl⟩
    · exact absurd rfl h

/-- The path of the request does not change the host. -/
theorem hostOf_append {baseUrl : String} (h : hostOf baseUrl ≠ []) :
    hostOf (baseUrl ++ "/v1/messages") = hostOf baseUrl := by
  obtain ⟨scheme, rest, hScheme, hLower⟩ := scheme_of_hostOf h
  have hLonger : (baseUrl ++ "/v1/messages").toList.map Char.toLower =
      scheme ++ ':' :: '/' :: '/' :: (rest ++ '/' :: "v1/messages".toList) := by
    rw [String.toList_append, List.map_append, hLower]
    simp
  rw [hostOf_scheme hScheme hLower, hostOf_scheme hScheme hLonger]
  have hAuthority := Url.authority_append rest "v1/messages".toList
  simp only [Url.authority] at hAuthority
  simp only [hostIn, hAuthority]

/-- What the client is given of the request has the host of what it is given of the address. -/
theorem hostOf_cStr_append {baseUrl : String} (h : hostOf baseUrl ≠ []) :
    hostOf (cStr (baseUrl ++ "/v1/messages")) = hostOf (cStr baseUrl) := by
  by_cases hZero : Char.ofNat 0 ∈ baseUrl.toList
  · have hSame : cStr (baseUrl ++ "/v1/messages") = cStr baseUrl := by
      rw [cStr, String.toList_append, Url.cText_append_of_mem hZero, cStr]
    rw [hSame]
  · have hPath : Char.ofNat 0 ∉ "/v1/messages".toList := by decide
    have hWhole : Char.ofNat 0 ∉ (baseUrl ++ "/v1/messages").toList := by
      rw [String.toList_append, List.mem_append]
      exact not_or.mpr ⟨hZero, hPath⟩
    rw [cStr, Url.cText_of_not_mem hWhole, cStr, Url.cText_of_not_mem hZero, String.ofList_toList,
      String.ofList_toList, hostOf_append h]

/-- A client reads the host that the guard finds in the same text, unless both see a bracket. -/
theorem hostOf_of_connect {client : Url.Client} {url : String} {connection : Url.Connection}
    (h : client.connect url.toList = some connection) :
    ((∃ address, connection.host = .literal address) ∧ (hostOf url).head? = some '[') ∨
      connection.host = .name (hostOf url) ∧ client.nameOf (hostOf url) = some connection.name := by
  obtain ⟨reading, hRead, hScheme, hHost, hName⟩ := Url.Client.connect_eq h
  obtain ⟨rest, hLower, hReadHost⟩ := Url.read_eq hRead
  rw [hostOf_scheme hScheme hLower]
  cases hCase : reading.host with
  | literal address =>
    rw [hCase] at hReadHost
    exact .inl ⟨⟨address, by rw [← hHost, hCase]⟩, hostIn_literal hReadHost⟩
  | name text =>
    rw [hCase] at hReadHost
    have hText : connection.host = .name text := by rw [← hHost, hCase]
    rw [hostIn_name hReadHost]
    exact .inr ⟨hText, hName text hText⟩

/-! ## What the guard lets through -/

/-- A name with no dot, or one of the two forms with dots. -/
def IsClusterName (host : List Char) : Prop :=
  ('.' ∉ host ∧ Url.numberOf host = none) ∨ ".svc".toList <:+ host ∨ ".svc.cluster.local".toList <:+ host

/-- What lets an address through lets it through to the cluster, and the client goes where the guard looked. -/
def Guarded (client : Url.Client) (baseUrl : String) : Prop :=
  refusalReason baseUrl = "" →
    IsClusterName (hostOf baseUrl) ∧ Url.ipv4Of (hostOf baseUrl) = none ∧ (hostOf baseUrl).head? ≠ some '[' ∧
    ∀ connection, client.connect (cStr (baseUrl ++ "/v1/messages")).toList = some connection →
      connection.host.text = hostOf baseUrl ∧ connection.name = hostOf baseUrl

/-- `.svc.` stands inside a name that ends in neither of the forms. -/
def svcInside (host : List Char) : Bool :=
  decide (".svc.".toList <:+: host) && !decide (".svc".toList <:+ host) &&
    !decide (".svc.cluster.local".toList <:+ host) && !decide ("127.".toList <+: host) && host.head? != some '['

theorem isAllowedHost_iff {host : List Char} : isAllowedHost host ↔
    host ≠ [] ∧ host ≠ "localhost".toList ∧ ¬"127.".toList <+: host ∧ host ≠ "::1".toList ∧ host.head? ≠ some '[' ∧
      (host.all fun c => c.isDigit || c == '.') = false ∧
      ('.' ∉ host ∨ ".svc".toList <:+ host ∨ ".svc.".toList <:+: host) := by
  unfold isAllowedHost
  split
  · rename_i hEmpty
    simp [hEmpty]
  · split
    · rename_i hNamed
      refine iff_of_false Bool.false_ne_true ?_
      rintro ⟨-, hLocal, hLoop, hSix, hBracket, -⟩
      rcases hNamed with h | h | h | h
      · exact hLocal h
      · exact hLoop h
      · exact hSix h
      · exact hBracket h
    · rename_i hNonempty hNamed
      simp only [not_or] at hNamed
      obtain ⟨hLocal, hLoop, hSix, hBracket⟩ := hNamed
      split
      · rename_i hNumeric
        refine iff_of_false Bool.false_ne_true ?_
        rintro ⟨-, -, -, -, -, hOther, -⟩
        rw [hNumeric] at hOther
        exact absurd hOther (by decide)
      · rename_i hNumeric
        rw [Bool.not_eq_true] at hNumeric
        simp only [ne_eq, hNonempty, hLocal, hLoop, hSix, hBracket, hNumeric, not_false_eq_true, true_and]
        split
        · rename_i hDot
          exact iff_of_true rfl (.inl hDot)
        · rename_i hDot
          split
          · rename_i hSvc
            exact iff_of_true rfl (.inr (.inl hSvc))
          · rename_i hSvc
            simp only [hDot, hSvc, false_or, decide_eq_true_eq]

theorem refusalReason_eq_empty {url : String} : refusalReason url = "" ↔ isAllowedHost (hostOf url) := by
  unfold refusalReason
  simp only
  split
  · rename_i hEmpty
    simp [hEmpty, isAllowedHost]
  · split
    · rename_i hRefused
      simp only [Bool.not_eq_true'] at hRefused
      simp [hRefused]
    · rename_i hAllowed
      simpa using hAllowed

theorem mem_of_svc {c : Char} {host : List Char} (hc : c ∈ ".svc".toList)
    (h : ".svc".toList <:+ host ∨ ".svc.".toList <:+: host) : c ∈ host := by
  rcases h with hEnd | hInside
  · exact hEnd.subset hc
  · have hLonger : ".svc".toList <+: ".svc.".toList := by decide
    exact hInside.subset (hLonger.subset hc)

/-- The letters of `svc` are in no number. -/
theorem ipv4Of_of_svc {host : List Char} (h : ".svc".toList <:+ host ∨ ".svc.".toList <:+: host) :
    Url.ipv4Of host = none := by
  by_contra hSome
  have hNumerals := Url.numerals_of_ipv4Of (Option.isSome_iff_ne_none.mpr hSome) 's' (mem_of_svc (by decide) h)
  exact absurd hNumerals (by decide)

/-- Of the numbers the guard only lets hexadecimal ones pass. -/
theorem numberOf_of_allowed {host : List Char} (h : isAllowedHost host) (hHex : Url.hexNumber host = false) :
    Url.numberOf host = none := by
  obtain ⟨-, -, -, -, -, hNumeric, -⟩ := isAllowedHost_iff.mp h
  by_contra hSome
  have hDigits := Url.digits_of_numberOf (Option.isSome_iff_ne_none.mpr hSome) hHex
  have hAll : (host.all fun c => c.isDigit || c == '.') = true :=
    List.all_eq_true.mpr fun c hc => by simp [hDigits c hc]
  exact absurd (hAll.symm.trans hNumeric) (by decide)

/-- An allowed name is no address of version 4 unless it is a hexadecimal number. -/
theorem ipv4Of_of_allowed {host : List Char} (h : isAllowedHost host) (hHex : Url.hexNumber host = false) :
    Url.ipv4Of host = none := by
  obtain ⟨-, -, -, -, -, -, hForm⟩ := isAllowedHost_iff.mp h
  rcases hForm with hSingle | hSvc
  · rw [Url.ipv4Of_eq hSingle, numberOf_of_allowed h hHex]
    rfl
  · exact ipv4Of_of_svc hSvc

theorem isClusterName_of_allowed {host : List Char} (h : isAllowedHost host) (hInside : svcInside host = false)
    (hHex : Url.hexNumber host = false) : IsClusterName host := by
  obtain ⟨-, -, hLoop, -, hBracket, -, hForm⟩ := isAllowedHost_iff.mp h
  rcases hForm with hSingle | hSvc | hMiddle
  · exact .inl ⟨hSingle, numberOf_of_allowed h hHex⟩
  · exact .inr (.inl hSvc)
  · by_contra hNone
    obtain ⟨-, hRest⟩ := not_or.mp hNone
    obtain ⟨hSvc, hLocal⟩ := not_or.mp hRest
    have hTrue : svcInside host = true := by simp only [svcInside, hMiddle, hSvc, hLocal, hLoop]; simpa using hBracket
    exact absurd (hTrue.symm.trans hInside) (by decide)

/-- A name with `.svc.` inside it that ends otherwise is let through and is none of the forms. -/
theorem of_svcInside {host : List Char} (h : svcInside host) : isAllowedHost host ∧ ¬IsClusterName host := by
  simp only [svcInside, Bool.and_eq_true, decide_eq_true_eq, Bool.not_eq_true', decide_eq_false_iff_not,
    bne_iff_ne] at h
  obtain ⟨⟨⟨⟨hMiddle, hSvc⟩, hLocal⟩, hLoop⟩, hBracket⟩ := h
  have hLetter : 's' ∈ host := mem_of_svc (by decide) (.inr hMiddle)
  have hDot : '.' ∈ host := mem_of_svc (by decide) (.inr hMiddle)
  constructor
  · refine isAllowedHost_iff.mpr ⟨List.ne_nil_of_mem hDot, ?_, hLoop, ?_, hBracket, ?_, .inr (.inr hMiddle)⟩
    · rintro rfl
      exact absurd hDot (by decide)
    · rintro rfl
      exact absurd hDot (by decide)
    · exact List.all_eq_false.mpr ⟨'s', hLetter, by decide⟩
  · rintro (⟨hSingle, -⟩ | hForm | hForm)
    · exact hSingle hDot
    · exact hSvc hForm
    · exact hLocal hForm

/-- A hexadecimal number is let through and is a number. -/
theorem of_hexNumber {host : List Char} (h : Url.hexNumber host) : isAllowedHost host ∧ ¬IsClusterName host := by
  obtain ⟨hNumber, hx⟩ := Url.number_of_hexNumber h
  have hNumerals := Url.numerals_of_numberOf hNumber
  have hNo : ∀ {c : Char}, Url.isNumeral c = false → c ∉ host := by
    intro c hc hMem
    exact absurd ((hNumerals c hMem).symm.trans hc) (by decide)
  have hDot : '.' ∉ host := hNo (by decide)
  constructor
  · refine isAllowedHost_iff.mpr ⟨List.ne_nil_of_mem hx, ?_, ?_, ?_, ?_, ?_, .inl hDot⟩
    · rintro rfl
      exact absurd hx (by decide)
    · exact fun hLoop => hDot (hLoop.subset (by decide))
    · rintro rfl
      exact absurd hx (by decide)
    · exact fun hBracket => hNo (by decide) (List.mem_of_mem_head? hBracket)
    · exact List.all_eq_false.mpr ⟨'x', hx, by decide⟩
  · rintro (⟨-, hNone⟩ | hForm | hForm)
    · rw [hNone] at hNumber
      exact absurd hNumber (by decide)
    · exact hDot (hForm.subset (by decide))
    · exact hDot (hForm.subset (by decide))

/-- The guard does what it is for unless `.svc.` stands inside another name, the name is a hexadecimal number, or a
client takes a URL that ends early at a zero with another host or whose host is not spelled in plain characters. -/
theorem guarded_iff (client : Url.Client) (baseUrl : String) :
    Guarded client baseUrl ↔
      svcInside (hostOf baseUrl) = false ∧ Url.hexNumber (hostOf baseUrl) = false ∧
      (isAllowedHost (hostOf baseUrl) →
        (client.connect (cStr (baseUrl ++ "/v1/messages")).toList).isSome →
        hostOf (cStr baseUrl) = hostOf baseUrl ∧ ∀ c ∈ hostOf baseUrl, Url.isPlain c) := by
  constructor
  · intro hGuarded
    refine ⟨?_, ?_, ?_⟩
    · by_contra hInside
      obtain ⟨hAllowed, hForm⟩ := of_svcInside (Bool.eq_true_of_not_eq_false hInside)
      exact hForm (hGuarded (refusalReason_eq_empty.mpr hAllowed)).1
    · by_contra hHex
      obtain ⟨hAllowed, hForm⟩ := of_hexNumber (Bool.eq_true_of_not_eq_false hHex)
      exact hForm (hGuarded (refusalReason_eq_empty.mpr hAllowed)).1
    · intro hAllowed hTaken
      obtain ⟨connection, hConnect⟩ := Option.isSome_iff_exists.mp hTaken
      obtain ⟨-, -, hBracket, hSame⟩ := hGuarded (refusalReason_eq_empty.mpr hAllowed)
      obtain ⟨hText, hName⟩ := hSame connection hConnect
      have hRead := hostOf_of_connect hConnect
      rw [hostOf_cStr_append (isAllowedHost_iff.mp hAllowed).1] at hRead
      rcases hRead with ⟨⟨address, hLiteral⟩, -⟩ | ⟨hHost, hLookup⟩
      · rw [hLiteral] at hText
        exact absurd (by rw [← hText]; rfl) hBracket
      · rw [hHost] at hText
        refine ⟨hText, ?_⟩
        rw [← hName]
        exact client.plain_of_nameOf _ _ hLookup
  · rintro ⟨hInside, hHex, hTaken⟩ hEmpty
    have hAllowed := refusalReason_eq_empty.mp hEmpty
    obtain ⟨hNonempty, -, -, -, hBracket, -⟩ := isAllowedHost_iff.mp hAllowed
    have hAddress := ipv4Of_of_allowed hAllowed hHex
    refine ⟨isClusterName_of_allowed hAllowed hInside hHex, hAddress, hBracket, ?_⟩
    intro connection hConnect
    obtain ⟨hSame, hPlain⟩ := hTaken hAllowed (Option.isSome_iff_exists.mpr ⟨connection, hConnect⟩)
    have hRead := hostOf_of_connect hConnect
    rw [hostOf_cStr_append hNonempty, hSame] at hRead
    rcases hRead with ⟨-, hHead⟩ | ⟨hHost, hLookup⟩
    · exact absurd hHead hBracket
    · exact ⟨by rw [hHost]; rfl, client.nameOf_of_plain _ _ hLookup hPlain hAddress⟩

/-- A client that looks plain names up as they are and refuses the rest. -/
def plainClient : Url.Client where
  takes _ := true
  nameOf host := if host.all Url.isPlain ∧ Url.ipv4Of host = none then some host else none
  plain_of_nameOf host name h := by
    split at h
    · rename_i hPlain
      injection h with hName
      subst hName
      exact List.all_eq_true.mp hPlain.1
    · exact absurd h (by simp)
  nameOf_of_plain host name h _ _ := by
    split at h
    · injection h with hName
      exact hName.symm
    · exact absurd h (by simp)

/-- A public name with `svc` as one of its parts is let through, and the client connects to it. -/
theorem public_name_passes :
    refusalReason "http://proxy.svc.evil.com" = "" ∧
      plainClient.connect "http://proxy.svc.evil.com/v1/messages".toList =
        some ⟨.name "proxy.svc.evil.com".toList, "proxy.svc.evil.com".toList⟩ ∧
      ¬Guarded plainClient "http://proxy.svc.evil.com" := by
  have hPasses : refusalReason "http://proxy.svc.evil.com" = "" := by decide +kernel
  refine ⟨hPasses, by decide +kernel, fun hGuarded => ?_⟩
  exact absurd (hGuarded hPasses).1 (by unfold IsClusterName; decide +kernel)

/-- What `call` sends goes to a host the guard allows. -/
theorem call_eq_ok {apiKey baseUrl url : String} (h : call apiKey baseUrl = .ok url) :
    isAllowedHost (hostOf baseUrl) ∧ url = baseUrl ++ "/v1/messages" := by
  simp only [call] at h
  split at h
  · cases h
  · rename_i hProblem
    injection h with hUrl
    refine ⟨?_, hUrl.symm⟩
    rw [ne_eq, not_not] at hProblem
    unfold configurationProblem at hProblem
    split at hProblem
    · exact absurd hProblem (by simp)
    · exact refusalReason_eq_empty.mp hProblem

/-- Without a zero in it no user's name, port or path leads the request to another host: a client that reads the
URL reads the host that was allowed. -/
theorem call_connects {apiKey baseUrl url : String} {client : Url.Client} {connection : Url.Connection}
    (hCall : call apiKey baseUrl = .ok url) (hZero : Char.ofNat 0 ∉ baseUrl.toList)
    (h : client.connect (cStr url).toList = some connection) :
    isAllowedHost (hostOf baseUrl) ∧ connection.host = .name (hostOf baseUrl) := by
  obtain ⟨hAllowed, rfl⟩ := call_eq_ok hCall
  obtain ⟨hNonempty, -, -, -, hBracket, -⟩ := isAllowedHost_iff.mp hAllowed
  have hWhole : cStr baseUrl = baseUrl := by rw [cStr, Url.cText_of_not_mem hZero, String.ofList_toList]
  have hRead := hostOf_of_connect h
  rw [hostOf_cStr_append hNonempty, hWhole] at hRead
  rcases hRead with ⟨-, hHead⟩ | ⟨hHost, -⟩
  · exact absurd hHead hBracket
  · exact ⟨hAllowed, hHost⟩

end CyberAccountant.Agent.Egress
