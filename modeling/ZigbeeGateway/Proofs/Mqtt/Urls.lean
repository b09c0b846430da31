-- URLs of brokers read back. Whatever user, password and client id are, and wherever marks stand in
-- the host that are none there, no cut goes through another part.
import ZigbeeGateway.Proofs.Mqtt.Escapes
import ZigbeeGateway.Proofs.Mqtt.Topics
namespace ZigbeeGateway

/-! ## Cuts at one mark -/

namespace Cut

variable {mark : Char} {before rest cs : List Char}

theorem atFirst?_append (h : mark ∉ before) (rest : List Char) :
    atFirst? [mark] (before ++ mark :: rest) = some (before, rest) := by
  induction before with
  | nil => simp [atFirst?, after?]
  | cons c before ih =>
    rw [List.mem_cons, not_or] at h
    simp [atFirst?, after?, h.1, ih h.2]

theorem atFirst?_eq_none (h : mark ∉ cs) : atFirst? [mark] cs = none := by
  induction cs with
  | nil => rfl
  | cons c cs ih =>
    rw [List.mem_cons, not_or] at h
    simp [atFirst?, after?, h.1, ih h.2]

end Cut

namespace Mqtt.Url

/-! ## How a URL is written -/

/-- A host in front of which, and in which, nothing ends. -/
structure SoundHost (host : String) : Prop where
  ne_empty : host ≠ ""
  free : ∀ mark ∈ ['/', '?', '#', '@'], mark ∉ host.toList

/-- User and password with the at sign behind them. A password needs a user. -/
inductive LoginText : (user password : Option String) → List Char → Prop
  | nobody : LoginText none none []
  | user {user : String} {cs : List Char} :
      EscapedText user cs → LoginText (some user) none (cs ++ ['@'])
  | password {user password : String} {cs ds : List Char} :
      EscapedText user cs → EscapedText password ds →
      LoginText (some user) (some password) (cs ++ ':' :: ds ++ ['@'])

/-- A host as it is, without colons, or in brackets. -/
inductive HostText (host : List Char) : List Char → Prop
  | plain : host.head? ≠ some '[' → ':' ∉ host → HostText host host
  | bracketed : ']' ∉ host → HostText host ('[' :: host ++ [']'])

/-- A port with its colon. The usual one may be left out. -/
inductive PortText : UInt16 → List Char → Prop
  | told (port : UInt16) : PortText port (':' :: Numeral.decimal port.toNat)
  | usual : PortText defaultPort []

/-- A slash, which may be left out. -/
inductive SlashText : List Char → Prop
  | slash : SlashText ['/']
  | nothing : SlashText []

/-- A client id with its question mark. -/
inductive QueryText : Option String → List Char → Prop
  | nothing : QueryText none []
  | clientId {id : String} {cs : List Char} :
      EscapedText id cs → QueryText (some id) ('?' :: ("clientid=".toList ++ cs))

/-- The texts that are written for a URL. -/
inductive WrittenAs (url : Url) : List Char → Prop
  | mk {scheme login host port slash query : List Char} :
      scheme = "mqtt".toList ∨ scheme = "tcp".toList → LoginText url.user url.password login →
      HostText url.host.toList host → PortText url.port port → SlashText slash →
      QueryText url.clientId query →
      WrittenAs url (scheme ++ "://".toList ++ (login ++ (host ++ port) ++ slash ++ query))

/-! ## What does not stand in the parts -/

theorem LoginText.not_mem {user password : Option String} {login : List Char}
    (h : LoginText user password login) {mark : Char} (hpercent : mark ≠ '%')
    (hmark : mark.isAlphanum = false) (hcolon : mark ≠ ':') (hat : mark ≠ '@') :
    mark ∉ login := by
  cases h with
  | nobody => simp
  | user hu => simp [hu.not_mem hpercent hmark, hat]
  | password hu hp => simp [hu.not_mem hpercent hmark, hp.not_mem hpercent hmark, hcolon, hat]

theorem HostText.not_mem {host cs : List Char} (h : HostText host cs) {mark : Char}
    (hmark : mark ∉ host) (hopening : mark ≠ '[') (hclosing : mark ≠ ']') : mark ∉ cs := by
  cases h with
  | plain => exact hmark
  | bracketed => simp [hmark, hopening, hclosing]

theorem PortText.not_mem {port : UInt16} {cs : List Char} (h : PortText port cs) {mark : Char}
    (hcolon : mark ≠ ':') (hdigit : ∀ d < 10, Numeral.digitChar d ≠ mark) : mark ∉ cs := by
  cases h with
  | told => simp [hcolon, Topic.not_mem_decimal hdigit]
  | usual => simp

theorem SlashText.not_mem {cs : List Char} (h : SlashText cs) {mark : Char} (hslash : mark ≠ '/') :
    mark ∉ cs := by
  cases h <;> simp [hslash]

theorem QueryText.not_mem {id : Option String} {cs : List Char} (h : QueryText id cs) :
    '#' ∉ cs := by
  cases h with
  | nothing => simp
  | clientId hid => simp [EscapedText.not_mem hid (by decide : '#' ≠ '%')]

/-! ## Cutting a written URL -/

theorem splitAt_append {mark : Char} {before : List Char} (h : mark ∉ before) (rest : List Char) :
    splitAt mark (before ++ mark :: rest) = (before, some rest) := by
  rw [splitAt, Cut.atFirst?_append h]

theorem splitAt_eq_self {mark : Char} {cs : List Char} (h : mark ∉ cs) :
    splitAt mark cs = (cs, none) := by
  rw [splitAt, Cut.atFirst?_eq_none h]

theorem SlashText.splitAt_eq {before slash : List Char} (h : SlashText slash)
    (hbefore : '/' ∉ before) :
    ∃ path, splitAt '/' (before ++ slash) = (before, path) ∧
      path.any (!·.isEmpty) = false := by
  cases h with
  | slash => exact ⟨some [], splitAt_append hbefore [], rfl⟩
  | nothing =>
    rw [List.append_nil]
    exact ⟨none, splitAt_eq_self hbefore, rfl⟩

theorem QueryText.splitAt_eq {id : Option String} {before query : List Char}
    (h : QueryText id query) (hbefore : '?' ∉ before) :
    ∃ q, splitAt '?' (before ++ query) = (before, q) ∧ queriedId q = .ok id := by
  cases h with
  | nothing =>
    rw [List.append_nil]
    exact ⟨none, splitAt_eq_self hbefore, rfl⟩
  | @clientId id cs hid =>
    refine ⟨some ("clientid=".toList ++ cs), splitAt_append hbefore _, ?_⟩
    have hequals : '=' ∉ cs := hid.not_mem (by decide) (by decide)
    have hand : '&' ∉ cs := hid.not_mem (by decide) (by decide)
    have hread : clientId? ("clientid=".toList ++ cs) = some id := by
      rw [clientId?, Cut.after?_eq_some_iff.mpr rfl]
      simp [hequals, hand, hid.unescape_eq]
    rw [queriedId, hread]
    rfl

/-- User and password are told by what stands in front of the last at sign. -/
theorem LoginText.splitLogin_eq {user password : Option String} {login place : List Char}
    (h : LoginText user password login) (hplace : '@' ∉ place) :
    ∃ info, splitLogin (login ++ place) = (info, place) ∧
      (info.map credentials).map (·.1) = user ∧ (info.map credentials).bind (·.2) = password := by
  have hcut : ∀ info, Cut.atLast? '@' (info ++ ['@'] ++ place) = some (info, place) :=
    fun info => Cut.atLast?_eq_some_iff.mpr ⟨by simp, hplace⟩
  cases h with
  | nobody =>
    rw [splitLogin, List.nil_append, Cut.atLast?_eq_none_iff.mpr hplace]
    exact ⟨none, rfl, rfl, rfl⟩
  | @user user cs hu =>
    have hcolon : ':' ∉ cs := hu.not_mem (by decide) (by decide)
    refine ⟨some cs, by rw [splitLogin, hcut], ?_⟩
    simp [credentials, Cut.atFirst?_eq_none hcolon, hu.unescape_eq]
  | @password user password cs ds hu hp =>
    have hcolon : ':' ∉ cs := hu.not_mem (by decide) (by decide)
    refine ⟨some (cs ++ ':' :: ds), by rw [splitLogin, hcut], ?_⟩
    simp [credentials, Cut.atFirst?_append hcolon, hu.unescape_eq, hp.unescape_eq]

theorem port?_decimal (port : UInt16) :
    port? (some (Numeral.decimal port.toNat)) = some port := by
  rw [port?, Topic.below?_decimal port.toNat_lt_size, Option.map_some, UInt16.ofNat_toNat]

theorem hostPort?_of_head {cs : List Char} (h : cs.head? ≠ some '[') :
    hostPort? cs = match Cut.atLast? ':' cs with
      | some (host, port) => some (host, some port)
      | none => some (cs, none) := by
  unfold hostPort?
  split
  next => exact absurd rfl h
  next => rfl

/-- A host without brackets ends at its colon, one in brackets at the first that closes. -/
theorem HostText.hostPort?_eq {host cs ds : List Char} {port : UInt16} (h : HostText host cs)
    (hport : PortText port ds) :
    ∃ digits, hostPort? (cs ++ ds) = some (host, digits) ∧ port? digits = some port := by
  cases h with
  | plain hopening hcolon =>
    cases hport with
    | told =>
      have hhead : (host ++ ':' :: Numeral.decimal port.toNat).head? ≠ some '[' := by
        cases host <;> simp_all
      have hdigits : ':' ∉ Numeral.decimal port.toNat := Topic.not_mem_decimal (by decide) _
      rw [hostPort?_of_head hhead, Cut.atLast?_eq_some_iff.mpr ⟨rfl, hdigits⟩]
      exact ⟨_, rfl, port?_decimal port⟩
    | usual =>
      rw [List.append_nil, hostPort?_of_head hopening, Cut.atLast?_eq_none_iff.mpr hcolon]
      exact ⟨none, rfl, rfl⟩
  | bracketed hclosing =>
    have hcut : ∀ ds, Cut.atFirst? [']'] (host ++ [']'] ++ ds) = some (host, ds) := by
      intro ds
      rw [List.append_assoc]
      exact Cut.atFirst?_append hclosing ds
    rw [List.cons_append, List.cons_append, hostPort?, hcut]
    cases hport with
    | told => exact ⟨_, rfl, port?_decimal port⟩
    | usual => exact ⟨none, rfl, rfl⟩

theorem atFirst?_scheme {scheme : List Char}
    (h : scheme = "mqtt".toList ∨ scheme = "tcp".toList) (rest : List Char) :
    Cut.atFirst? "://".toList (scheme ++ "://".toList ++ rest) = some (scheme, rest) := by
  rcases h with rfl | rfl <;> simp [Cut.atFirst?, Cut.after?]

/-- A URL is put together from what its cuts give. -/
theorem parseChars_of_cuts {scheme rest before authority place host : List Char}
    {query path login digits : Option (List Char)} {id : Option String} {port : UInt16}
    (hscheme : scheme = "mqtt".toList ∨ scheme = "tcp".toList) (hfragment : '#' ∉ rest)
    (hquery : splitAt '?' rest = (before, query)) (hid : queriedId query = .ok id)
    (hpath : splitAt '/' before = (authority, path)) (hempty : path.any (!·.isEmpty) = false)
    (hlogin : splitLogin authority = (login, place))
    (hplace : hostPort? place = some (host, digits)) (hport : port? digits = some port)
    (hhost : host ≠ []) :
    parseChars (scheme ++ "://".toList ++ rest) = .ok ⟨String.ofList host, port,
      (login.map credentials).map (·.1), (login.map credentials).bind (·.2), id⟩ := by
  have hknown : ¬(scheme ≠ "mqtt".toList ∧ scheme ≠ "tcp".toList) :=
    fun hne => hscheme.elim hne.1 hne.2
  have hnoFragment : ¬rest.contains '#' = true := by rwa [List.contains_iff_mem]
  have hnoPath : ¬path.any (!·.isEmpty) = true := by rw [hempty]; exact Bool.false_ne_true
  have hsomeHost : ¬host.isEmpty = true := by rwa [List.isEmpty_iff]
  unfold parseChars
  rw [atFirst?_scheme hscheme]
  refine (if_neg hknown).trans ?_
  refine (if_neg hnoFragment).trans ?_
  rw [hquery]
  dsimp only
  rw [hpath]
  refine (if_neg hnoPath).trans ?_
  dsimp only
  rw [hid, hlogin]
  dsimp only [bind, Except.bind]
  rw [hplace]
  dsimp only
  rw [hport]
  exact if_neg hsomeHost

/-- No mark that is cut at stands in a part that the cut does not end. -/
theorem parseChars_of_writtenAs {url : Url} (hhost : SoundHost url.host) {cs : List Char}
    (h : WrittenAs url cs) : parseChars cs = .ok url := by
  cases h with
  | @mk scheme login host port slash query hscheme hlogin hhostText hport hslash hquery =>
    have hplace : ∀ mark ∈ ['/', '?', '#', '@'], mark ∉ host ++ port := by
      intro mark hmark
      have hhostFree := hhost.free mark hmark
      simp only [List.mem_cons, List.not_mem_nil, or_false] at hmark
      rw [List.mem_append, not_or]
      rcases hmark with rfl | rfl | rfl | rfl <;>
        exact ⟨hhostText.not_mem hhostFree (by decide) (by decide),
          hport.not_mem (by decide) (by decide)⟩
    have hauthority : ∀ mark ∈ ['/', '?', '#'], mark ∉ login ++ (host ++ port) := by
      intro mark hmark
      have hplaceFree := hplace mark (by grind)
      simp only [List.mem_cons, List.not_mem_nil, or_false] at hmark
      rw [List.mem_append, not_or]
      rcases hmark with rfl | rfl | rfl <;>
        exact ⟨hlogin.not_mem (by decide) (by decide) (by decide) (by decide), hplaceFree⟩
    have hquestion : '?' ∉ login ++ (host ++ port) ++ slash := by
      rw [List.mem_append, not_or]
      exact ⟨hauthority '?' (by simp), hslash.not_mem (by decide)⟩
    have hfragment : '#' ∉ login ++ (host ++ port) ++ slash ++ query := by
      rw [List.mem_append, List.mem_append, not_or, not_or]
      exact ⟨⟨hauthority '#' (by simp), hslash.not_mem (by decide)⟩, hquery.not_mem⟩
    have hsomeHost : url.host.toList ≠ [] := mt String.toList_eq_nil_iff.mp hhost.ne_empty
    obtain ⟨q, hq, hid⟩ := hquery.splitAt_eq hquestion
    obtain ⟨path, hsplit, hempty⟩ := hslash.splitAt_eq (hauthority '/' (by simp))
    obtain ⟨info, hinfo, huser, hpassword⟩ := hlogin.splitLogin_eq (hplace '@' (by simp))
    obtain ⟨digits, hcut, hdigits⟩ := hhostText.hostPort?_eq hport
    rw [parseChars_of_cuts hscheme hfragment hq hid hsplit hempty hinfo hcut hdigits
        hsomeHost,
      huser, hpassword, String.ofList_toList]

/-! ## The law -/

/-- What can be written as a URL: the host stands in brackets or needs none, and there is no
password without a user. User, password and client id may be any texts. -/
structure Writable (url : Url) : Prop where
  host : SoundHost url.host
  brackets : ']' ∉ url.host.toList ∨ url.host.toList.head? ≠ some '[' ∧ ':' ∉ url.host.toList
  password : url.user = none → url.password = none

theorem exists_loginText {user password : Option String} (h : user = none → password = none) :
    ∃ login, LoginText user password login := by
  match user, password with
  | none, none => exact ⟨_, .nobody⟩
  | none, some _ => exact absurd (h rfl) (Option.some_ne_none _)
  | some user, none => exact ⟨_, .user (escapedText_escape user)⟩
  | some user, some password =>
    exact ⟨_, .password (escapedText_escape user) (escapedText_escape password)⟩

theorem exists_queryText : ∀ id : Option String, ∃ query, QueryText id query
  | none => ⟨_, .nothing⟩
  | some id => ⟨_, .clientId (escapedText_escape id)⟩

theorem Writable.exists_writtenAs {url : Url} (h : Writable url) :
    ∃ text : String, WrittenAs url text.toList := by
  obtain ⟨login, hlogin⟩ := exists_loginText h.password
  obtain ⟨query, hquery⟩ := exists_queryText url.clientId
  have hhost : ∃ host, HostText url.host.toList host := by
    rcases h.brackets with hclosing | ⟨hopening, hcolon⟩
    · exact ⟨_, .bracketed hclosing⟩
    · exact ⟨_, .plain hopening hcolon⟩
  obtain ⟨host, hhost⟩ := hhost
  obtain ⟨cs, hwritten⟩ : ∃ cs, WrittenAs url cs :=
    ⟨_, .mk (.inl rfl) hlogin hhost (.told url.port) .slash hquery⟩
  exact ⟨String.ofList cs, by rwa [String.toList_ofList]⟩

/-- URLs read back: every one that can be written has a text, and each of its texts, with the marks
of user, password and client id escaped, with or without brackets, slash and the usual port, is
read as this URL and no other. -/
theorem a_broker_url_reads_back {url : Url} (h : Writable url) :
    (∃ text : String, WrittenAs url text.toList) ∧
      ∀ text : String, WrittenAs url text.toList → parse text = .ok url :=
  ⟨h.exists_writtenAs, fun _ htext => parseChars_of_writtenAs h.host htext⟩

/-- Marks of every kind, in the host in brackets and else behind escapes. -/
theorem a_url_full_of_marks_reads_back :
    Writable ⟨"::1", 1884, some "us@er:é", some "p/%", some "a&b=🐝"⟩ ∧
      parse "mqtt://us%40er%3A%C3%A9:p%2F%25@[::1]:1884/?clientid=a%26b%3D%F0%9F%90%9D" =
        .ok ⟨"::1", 1884, some "us@er:é", some "p/%", some "a&b=🐝"⟩ := by
  have hwritable : Writable ⟨"::1", 1884, some "us@er:é", some "p/%", some "a&b=🐝"⟩ :=
    ⟨⟨by decide +kernel, by simp⟩, .inl (by simp), by simp⟩
  have hlogin := LoginText.password (escapedText_escape "us@er:é") (escapedText_escape "p/%")
  have hquery := QueryText.clientId (escapedText_escape "a&b=🐝")
  have hwritten : WrittenAs ⟨"::1", 1884, some "us@er:é", some "p/%", some "a&b=🐝"⟩ _ :=
    .mk (.inl rfl) hlogin (.bracketed (by decide +kernel)) (.told 1884) .slash hquery
  refine ⟨hwritable, (a_broker_url_reads_back hwritable).2 _ ?_⟩
  have htext : "mqtt://us%40er%3A%C3%A9:p%2F%25@[::1]:1884/?clientid=a%26b%3D%F0%9F%90%9D".toList =
      "mqtt".toList ++ "://".toList ++ (escape "us@er:é" ++ ':' :: escape "p/%" ++ ['@'] ++
        ('[' :: "::1".toList ++ [']'] ++ ':' :: Numeral.decimal 1884) ++ ['/'] ++
        '?' :: ("clientid=".toList ++ escape "a&b=🐝")) := by
    decide +kernel
  rw [htext]
  exact hwritten

end Mqtt.Url

end ZigbeeGateway
