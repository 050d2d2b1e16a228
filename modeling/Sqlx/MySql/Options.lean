import Sqlx.Lib.Url
import Mathlib.Data.Bool.AllAny

/-!
# MySQL — connect options as a URL (`sqlx-mysql/src/options/parse.rs`)

`build_url` writes the options as `mysql://{username}@{host}:{port}`, parsed
by the `url` crate, then sets the password and the path and appends the
query pairs; `parse_from_url` reads a URL back into options, starting from
the defaults. Text is kept as its UTF-8 bytes.

The `url` and `percent-encoding` crates are a parameter (`UrlApi`): the calls
the two functions make, with the laws of them the results rest on, each a
named field. The crates' model of `Lib/Url` keeps them (`urlCrate`), which is
what the concrete run at the end uses.

The username and the host go into the URL unescaped: an IPv6 literal such as
`::1` leaves the URL without a host, and `build_url` panics on the
`expect` (`buildUrl_of_colon_host`). The collation is appended under the key
`charset`, so that reading the URL back sets the charset to the collation
and leaves no collation (`foldlM_applyQueryPair_urlQueryPairs`).
-/

namespace Sqlx.MySql

open Wire

/-- `MySqlSslMode`. -/
inductive MySqlSslMode where
  | disabled
  | preferred
  | required
  | verifyCa
  | verifyIdentity
  deriving DecidableEq, Repr

/-- `CertificateInput`: PEM bytes, or the path of a file. -/
inductive CertificateInput where
  | inline (pem : List UInt8)
  | file (path : List UInt8)
  deriving DecidableEq, Repr

/-- `<CertificateInput as Display>`: a path after `file: `, the PEM read as
UTF-8 lossily. -/
def CertificateInput.toString : CertificateInput → List UInt8
  | .inline pem => Utf8.lossy pem
  | .file path => asciiBytes "file: ".toList ++ Utf8.lossy path

/-- The errors of `parse_from_url`, each an `Error::Configuration`. -/
inductive ConfigError where
  /-- The `Utf8Error` of `decode_utf8` on percent-decoded text. -/
  | utf8
  /-- `unknown value {s:?} for ssl_mode`. -/
  | unknownSslMode (value : List UInt8)
  /-- The `ParseIntError` of `statement-cache-capacity`. -/
  | parseInt (value : List UInt8)
  deriving DecidableEq, Repr

/-- `MySqlConnectOptions`, the fields `build_url` and `parse_from_url` read
and write. -/
structure MySqlConnectOptions where
  host : List UInt8
  port : UInt16
  socket : Option (List UInt8)
  username : List UInt8
  password : Option (List UInt8)
  database : Option (List UInt8)
  sslMode : MySqlSslMode
  sslCa : Option CertificateInput
  sslClientCert : Option CertificateInput
  sslClientKey : Option CertificateInput
  statementCacheCapacity : UInt64
  charset : List UInt8
  collation : Option (List UInt8)
  timezone : Option (List UInt8)
  deriving DecidableEq

namespace MySqlConnectOptions

/-- `MySqlConnectOptions::new`. -/
def new : MySqlConnectOptions where
  host := asciiBytes "localhost".toList
  port := 3306
  socket := none
  username := asciiBytes "root".toList
  password := none
  database := none
  sslMode := .preferred
  sslCa := none
  sslClientCert := none
  sslClientKey := none
  statementCacheCapacity := 100
  charset := asciiBytes "utf8mb4".toList
  collation := none
  timezone := some (asciiBytes "+00:00".toList)

end MySqlConnectOptions

/-! ## The `url` crate -/

/-- The calls `build_url` and `parse_from_url` make on the `url` and
`percent-encoding` crates, over a URL type `U`, with the laws of those calls
that the results below rest on. -/
structure UrlApi (U : Type) where
  /-- `Url::parse(&format!("{scheme}://{rest}"))`; `none` is its `Err` -/
  parse : List UInt8 → List UInt8 → Option U
  /-- `set_password(Some(password))`; `none` is its `Err(())` -/
  setPassword : U → List UInt8 → Option U
  setPath : U → List UInt8 → U
  /-- `query_pairs_mut().append_pair(name, value)` -/
  appendPair : U → List UInt8 → List UInt8 → U
  hostStr : U → Option (List UInt8)
  port : U → Option UInt16
  username : U → List UInt8
  password : U → Option (List UInt8)
  path : U → List UInt8
  /-- `query_pairs`, each name and value decoded -/
  queryPairs : U → List (List UInt8 × List UInt8)
  /-- `percent_decode_str` -/
  percentDecode : List UInt8 → List UInt8
  /-- `utf8_percent_encode(_, NON_ALPHANUMERIC)` -/
  encodeNonAlphanumeric : List UInt8 → List UInt8
  /-- a `mysql` URL whose user and host are unreserved bytes, the host not
  empty, gives them back, with its port, and no password, path or query -/
  parse_plain : ∀ {user host : List UInt8}, (∀ b ∈ user, isUnreserved b = true) →
    (∀ b ∈ host, isUnreserved b = true) → host ≠ [] → ∀ n : UInt16,
    ∃ url, parse (asciiBytes "mysql".toList) (user ++ 0x40 :: host ++ 0x3A :: decimalBytes n.toNat) = some url ∧
      hostStr url = some host ∧ port url = some n ∧ username url = user ∧ password url = none ∧
      path url = [] ∧ queryPairs url = []
  /-- after the user's `@`, a `:` starts the port of an empty host, which
  the parser refuses (`EmptyHost`) -/
  parse_colon_host : ∀ {user rest : List UInt8}, (∀ b ∈ user, isUnreserved b = true) →
    (∀ b ∈ rest, 0x20 < b ∧ b ≠ 0x40 ∧ b ≠ 0x2F ∧ b ≠ 0x3F ∧ b ≠ 0x23) →
    parse (asciiBytes "mysql".toList) (user ++ 0x40 :: 0x3A :: rest) = none
  /-- a pair of UTF-8 texts appended to the query is read back after the pairs before it -/
  queryPairs_appendPair : ∀ url name value, Utf8.valid name = true → Utf8.valid value = true →
    queryPairs (appendPair url name value) = queryPairs url ++ [(name, value)]
  /-- appending a pair changes the query only -/
  appendPair_keeps : ∀ url name value,
    hostStr (appendPair url name value) = hostStr url ∧ port (appendPair url name value) = port url ∧
      username (appendPair url name value) = username url ∧
      password (appendPair url name value) = password url ∧ path (appendPair url name value) = path url
  /-- text without a `%` decodes to itself -/
  percentDecode_of_not_mem : ∀ {bytes : List UInt8}, 0x25 ∉ bytes → percentDecode bytes = bytes

section UrlCrate

open UrlCrate PercentEncoding

theorem isAuthorityEnd_eq_false {b : UInt8} (h : b ≠ 0x2F ∧ b ≠ 0x3F ∧ b ≠ 0x23) : isAuthorityEnd b = false := by
  simp [isAuthorityEnd, byte, h.1, h.2.1, h.2.2]

/-- The crates' model of `Lib/Url` and `Lib/PercentEncoding` keeps the laws. -/
def urlCrate : UrlApi Url where
  parse scheme rest := (UrlCrate.parse scheme rest).toOption
  setPassword url password := url.setPassword (some password)
  setPath := Url.setPath
  appendPair := Url.appendPair
  hostStr := Url.hostStr
  port := Url.port
  username := Url.username
  password := Url.password
  path := Url.pathStr
  queryPairs := Url.queryPairs
  percentDecode := percentDecode
  encodeNonAlphanumeric password := utf8PercentEncode password NON_ALPHANUMERIC
  parse_plain {user host} huser hhost hne n := by
    have hparse := parse_plain_authority (asciiBytes "mysql".toList) (fun b hb => Plain.of_isUnreserved (huser b hb))
      (fun b hb => Plain.of_isUnreserved (hhost b hb)) hne n
    refine ⟨_, congrArg Except.toOption hparse, ?_, rfl, rfl, rfl, rfl, rfl⟩
    simp [Url.hostStr, hne, Host.serialize]
  parse_colon_host {user rest} huser hrest :=
    congrArg Except.toOption (UrlCrate.parse_colon_host _ (fun b hb => Plain.of_isUnreserved (huser b hb))
      (fun b hb => ⟨(hrest b hb).1, (hrest b hb).2.1, isAuthorityEnd_eq_false (hrest b hb).2.2⟩))
  queryPairs_appendPair url name value hname hvalue := by
    have hpair : PercentEncoding.parse (serializePair (name, value)) = [(name, value)] :=
      parse_serializePair ⟨hname, hvalue⟩
    -- no query, an empty one, or pairs to follow with `&`
    rcases hq : url.query with _ | q
    · simp [Url.queryPairs, Url.appendPair, hq, hpair, parse_nil]
    · by_cases hq0 : q = []
      · simp [Url.queryPairs, Url.appendPair, hq, hq0, hpair, parse_nil]
      · simp [Url.queryPairs, Url.appendPair, hq, hq0, hpair, byte, parse_append_amp]
  appendPair_keeps _ _ _ := ⟨rfl, rfl, rfl, rfl, rfl⟩
  percentDecode_of_not_mem h := percentDecode_of_forall_ne fun _ hb heq => h (heq ▸ hb)

end UrlCrate

/-! ## `build_url` -/

/-- The `ssl-mode` value `build_url` writes. -/
def MySqlSslMode.urlValue : MySqlSslMode → List UInt8
  | .disabled => asciiBytes "DISABLED".toList
  | .preferred => asciiBytes "PREFERRED".toList
  | .required => asciiBytes "REQUIRED".toList
  | .verifyCa => asciiBytes "VERIFY_CA".toList
  | .verifyIdentity => asciiBytes "VERIFY_IDENTITY".toList

variable {U : Type} (api : UrlApi U)

/-- `append_pair` for each pair in turn. -/
def UrlApi.appendPairs (url : U) (pairs : List (List UInt8 × List UInt8)) : U :=
  pairs.foldl (fun url pair => api.appendPair url pair.1 pair.2) url

namespace MySqlConnectOptions

/-- The query pairs `build_url` appends, in order. -/
def urlQueryPairs (self : MySqlConnectOptions) : List (List UInt8 × List UInt8) :=
  [(asciiBytes "ssl-mode".toList, self.sslMode.urlValue)] ++
    (self.sslCa.map fun ca => (asciiBytes "ssl-ca".toList, ca.toString)).toList ++
    [(asciiBytes "charset".toList, self.charset)] ++
    -- the collation goes under the key `charset`
    (self.collation.map fun collation => (asciiBytes "charset".toList, collation)).toList ++
    (self.sslClientCert.map fun cert => (asciiBytes "ssl-cert".toList, cert.toString)).toList ++
    (self.sslClientKey.map fun key => (asciiBytes "ssl-key".toList, key.toString)).toList ++
    [(asciiBytes "statement-cache-capacity".toList, decimalBytes self.statementCacheCapacity.toNat)] ++
    (self.socket.map fun socket => (asciiBytes "socket".toList, Utf8.lossy socket)).toList

/-- `build_url`; `none` is the panic of `expect` on a URL that does not parse. -/
def buildUrl (self : MySqlConnectOptions) : Option U := do
  let url ← api.parse (asciiBytes "mysql".toList)
    (self.username ++ 0x40 :: self.host ++ 0x3A :: decimalBytes self.port.toNat)
  -- a refused `set_password` is ignored
  let url := match self.password with
    | some password => (api.setPassword url (api.encodeNonAlphanumeric password)).getD url
    | none => url
  let url := match self.database with
    | some database => api.setPath url database
    | none => url
  pure (api.appendPairs url self.urlQueryPairs)

end MySqlConnectOptions

/-! ## `parse_from_url` -/

/-- `to_ascii_lowercase`. -/
def asciiLowercase (s : List UInt8) : List UInt8 := s.map fun b => if 0x41 ≤ b ∧ b ≤ 0x5A then b + 0x20 else b

/-- `MySqlSslMode::from_str`: the name in any case. -/
def MySqlSslMode.fromStr (s : List UInt8) : Except ConfigError MySqlSslMode :=
  let lower := asciiLowercase s
  if lower = asciiBytes "disabled".toList then .ok .disabled
  else if lower = asciiBytes "preferred".toList then .ok .preferred
  else if lower = asciiBytes "required".toList then .ok .required
  else if lower = asciiBytes "verify_ca".toList then .ok .verifyCa
  else if lower = asciiBytes "verify_identity".toList then .ok .verifyIdentity
  else .error (.unknownSslMode s)

theorem MySqlSslMode.fromStr_urlValue (mode : MySqlSslMode) : fromStr mode.urlValue = .ok mode := by
  cases mode <;> decide

/-- The keys `parse_from_url` knows, by the option each sets. -/
inductive QueryKey where
  | sslMode
  | sslCa
  | charset
  | collation
  | sslCert
  | sslKey
  | statementCacheCapacity
  | socket
  | timezone
  | other
  deriving DecidableEq, Repr

/-- The option a key names, with its aliases. -/
def QueryKey.ofBytes (key : List UInt8) : QueryKey :=
  if key = asciiBytes "sslmode".toList ∨ key = asciiBytes "ssl-mode".toList then .sslMode
  else if key = asciiBytes "sslca".toList ∨ key = asciiBytes "ssl-ca".toList then .sslCa
  else if key = asciiBytes "charset".toList then .charset
  else if key = asciiBytes "collation".toList then .collation
  else if key = asciiBytes "sslcert".toList ∨ key = asciiBytes "ssl-cert".toList then .sslCert
  else if key = asciiBytes "sslkey".toList ∨ key = asciiBytes "ssl-key".toList then .sslKey
  else if key = asciiBytes "statement-cache-capacity".toList then .statementCacheCapacity
  else if key = asciiBytes "socket".toList then .socket
  else if key = asciiBytes "timezone".toList ∨ key = asciiBytes "time-zone".toList then .timezone
  else .other

namespace MySqlConnectOptions

/-- `percent_decode_str(..).decode_utf8()`, the error a configuration error. -/
def decodeUtf8 (bytes : List UInt8) : Except ConfigError (List UInt8) :=
  if Utf8.valid (api.percentDecode bytes) then .ok (api.percentDecode bytes) else .error .utf8

/-- One turn of the loop over `url.query_pairs()`; unknown keys are ignored. -/
def applyQueryPair (options : MySqlConnectOptions) (pair : List UInt8 × List UInt8) :
    Except ConfigError MySqlConnectOptions :=
  let value := pair.2
  match QueryKey.ofBytes pair.1 with
  | .sslMode => (fun sslMode => { options with sslMode }) <$> MySqlSslMode.fromStr value
  | .sslCa => .ok { options with sslCa := some (.file value) }
  | .charset => .ok { options with charset := value }
  | .collation => .ok { options with collation := some value }
  | .sslCert => .ok { options with sslClientCert := some (.file value) }
  | .sslKey => .ok { options with sslClientKey := some (.file value) }
  | .statementCacheCapacity =>
    match parseUnsigned 64 value with
    | some capacity => .ok { options with statementCacheCapacity := capacity.toUInt64 }
    | none => .error (.parseInt value)
  | .socket => .ok { options with socket := some value }
  | .timezone => .ok { options with timezone := some value }
  | .other => .ok options

/-- `parse_from_url`. -/
def parseFromUrl (url : U) : Except ConfigError MySqlConnectOptions := do
  let options := new
  let options := match api.hostStr url with
    | some host => { options with host }
    | none => options
  let options := match api.port url with
    | some port => { options with port }
    | none => options
  let options ← if api.username url = [] then pure options
    else do
      let username ← decodeUtf8 api (api.username url)
      pure { options with username }
  let options ← match api.password url with
    | some password => do
      let password ← decodeUtf8 api password
      pure { options with password := some password }
    | none => pure options
  -- `trim_start_matches('/')`
  let path := (api.path url).dropWhile (· = 0x2F)
  let options ← if path = [] then pure options
    else do
      let database ← decodeUtf8 api path
      pure { options with database := some database }
  (api.queryPairs url).foldlM applyQueryPair options

end MySqlConnectOptions

/-! ## Reading the built URL back -/

/-- Appending pairs changes the query only. -/
theorem UrlApi.appendPairs_keeps (url : U) (pairs : List (List UInt8 × List UInt8)) :
    api.hostStr (api.appendPairs url pairs) = api.hostStr url ∧ api.port (api.appendPairs url pairs) = api.port url ∧
      api.username (api.appendPairs url pairs) = api.username url ∧
      api.password (api.appendPairs url pairs) = api.password url ∧
      api.path (api.appendPairs url pairs) = api.path url := by
  induction pairs generalizing url with
  | nil => exact ⟨rfl, rfl, rfl, rfl, rfl⟩
  | cons pair pairs ih =>
    obtain ⟨h1, h2, h3, h4, h5⟩ := ih (api.appendPair url pair.1 pair.2)
    obtain ⟨k1, k2, k3, k4, k5⟩ := api.appendPair_keeps url pair.1 pair.2
    exact ⟨h1.trans k1, h2.trans k2, h3.trans k3, h4.trans k4, h5.trans k5⟩

/-- Pairs of UTF-8 texts appended to the query are read back, in order,
after the pairs before them. -/
theorem UrlApi.queryPairs_appendPairs (url : U) (pairs : List (List UInt8 × List UInt8))
    (h : ∀ pair ∈ pairs, Utf8.valid pair.1 = true ∧ Utf8.valid pair.2 = true) :
    api.queryPairs (api.appendPairs url pairs) = api.queryPairs url ++ pairs := by
  induction pairs generalizing url with
  | nil => exact (List.append_nil _).symm
  | cons pair pairs ih =>
    have hpair := h pair List.mem_cons_self
    have hrest := ih (api.appendPair url pair.1 pair.2) fun p hp => h p (List.mem_cons_of_mem _ hp)
    calc api.queryPairs (api.appendPairs url (pair :: pairs))
        = api.queryPairs (api.appendPair url pair.1 pair.2) ++ pairs := hrest
      _ = api.queryPairs url ++ pair :: pairs := by
        rw [api.queryPairs_appendPair _ _ _ hpair.1 hpair.2, List.append_assoc, List.singleton_append]

namespace MySqlConnectOptions

/-- Unreserved text decodes to itself. -/
theorem decodeUtf8_of_unreserved {bytes : List UInt8} (h : ∀ b ∈ bytes, isUnreserved b = true) :
    decodeUtf8 api bytes = .ok bytes := by
  have hpercent : (0x25 : UInt8) ∉ bytes := fun hb => absurd (h _ hb) (by decide)
  have hvalid : Utf8.valid bytes = true := Utf8.valid_of_ascii fun b hb => lt_0x80_of_isUnreserved (h b hb)
  simp only [decodeUtf8, api.percentDecode_of_not_mem hpercent, hvalid, if_true]

/-- `build_url` of options with an unreserved username and host and no
password or database: the URL the crate parses, with the query pairs appended. -/
theorem buildUrl_of_plain {self : MySqlConnectOptions} (huser : ∀ b ∈ self.username, isUnreserved b = true)
    (hhost : ∀ b ∈ self.host, isUnreserved b = true) (hne : self.host ≠ []) (hpassword : self.password = none)
    (hdatabase : self.database = none) :
    ∃ url, self.buildUrl api = some (api.appendPairs url self.urlQueryPairs) ∧ api.hostStr url = some self.host ∧
      api.port url = some self.port ∧ api.username url = self.username ∧ api.password url = none ∧
      api.path url = [] ∧ api.queryPairs url = [] := by
  obtain ⟨url, hparse, hrest⟩ := api.parse_plain huser hhost hne self.port
  refine ⟨url, ?_, hrest⟩
  simp only [buildUrl, hparse, hpassword, hdatabase, Option.bind_eq_bind, Option.bind_some]
  rfl

/-- Reading a URL with a host, a port, an unreserved username, no password
and no path: the defaults with those, then the query pairs in order. -/
theorem parseFromUrl_of_plain {url : U} {host : List UInt8} {port : UInt16}
    (hhost : api.hostStr url = some host) (hport : api.port url = some port)
    (huser : ∀ b ∈ api.username url, isUnreserved b = true) (hpassword : api.password url = none)
    (hpath : api.path url = []) :
    parseFromUrl api url = (api.queryPairs url).foldlM applyQueryPair
      { new with
        host
        port
        username := if api.username url = [] then new.username else api.username url } := by
  by_cases hempty : api.username url = []
  · simp [parseFromUrl, hhost, hport, hempty, hpassword, hpath]
  · simp [parseFromUrl, hhost, hport, hempty, hpassword, hpath, decodeUtf8_of_unreserved api huser]

theorem urlQueryPairs_valid {self : MySqlConnectOptions} (hca : self.sslCa = none) (hcert : self.sslClientCert = none)
    (hkey : self.sslClientKey = none) (hsocket : self.socket = none) (hcharset : Utf8.valid self.charset = true)
    (hcollation : ∀ c ∈ self.collation, Utf8.valid c = true) :
    ∀ pair ∈ self.urlQueryPairs, Utf8.valid pair.1 = true ∧ Utf8.valid pair.2 = true := by
  have hmode : Utf8.valid self.sslMode.urlValue = true := by cases self.sslMode <;> decide
  have hcapacity : Utf8.valid (decimalBytes self.statementCacheCapacity.toNat) = true :=
    Utf8.valid_of_ascii fun b hb =>
      lt_0x80_of_isUnreserved (isUnreserved_of_isAsciiDigit (isAsciiDigit_of_mem_decimalBytes hb))
  intro pair hpair
  cases hc : self.collation with
  | none =>
    simp only [urlQueryPairs, hca, hcert, hkey, hsocket, hc, Option.map_none, Option.toList_none,
      List.append_nil, List.cons_append, List.nil_append, List.mem_cons,
      List.not_mem_nil, or_false] at hpair
    rcases hpair with rfl | rfl | rfl <;> dsimp only <;> exact ⟨by decide, by assumption⟩
  | some collation =>
    have hvalid : Utf8.valid collation = true := hcollation collation hc
    simp only [urlQueryPairs, hca, hcert, hkey, hsocket, hc, Option.map_none, Option.map_some, Option.toList_none,
      Option.toList_some, List.append_nil, List.cons_append, List.nil_append, List.mem_cons,
      List.not_mem_nil, or_false] at hpair
    rcases hpair with rfl | rfl | rfl | rfl <;> dsimp only <;> exact ⟨by decide, by assumption⟩

/-! The three keys `build_url` always writes, each read into its option. -/

theorem applyQueryPair_sslMode (options : MySqlConnectOptions) (mode : MySqlSslMode) :
    applyQueryPair options (asciiBytes "ssl-mode".toList, mode.urlValue) = .ok { options with sslMode := mode } := by
  have hkey : QueryKey.ofBytes (asciiBytes "ssl-mode".toList) = .sslMode := by decide
  simp only [applyQueryPair, hkey, MySqlSslMode.fromStr_urlValue]
  rfl

theorem applyQueryPair_charset (options : MySqlConnectOptions) (value : List UInt8) :
    applyQueryPair options (asciiBytes "charset".toList, value) = .ok { options with charset := value } := by
  have hkey : QueryKey.ofBytes (asciiBytes "charset".toList) = .charset := by decide
  simp only [applyQueryPair, hkey]

theorem applyQueryPair_statementCacheCapacity (options : MySqlConnectOptions) (capacity : UInt64) :
    applyQueryPair options (asciiBytes "statement-cache-capacity".toList, decimalBytes capacity.toNat) =
      .ok { options with statementCacheCapacity := capacity } := by
  have hkey : QueryKey.ofBytes (asciiBytes "statement-cache-capacity".toList) = .statementCacheCapacity := by
    decide
  have hparse : parseUnsigned 64 (decimalBytes capacity.toNat) = some capacity.toNat :=
    parseUnsigned_decimalBytes (UInt64.toNat_lt _)
  simp only [applyQueryPair, hkey, hparse, UInt64.ofNat_toNat]

/-- The pairs `build_url` writes, read into any options: the collation,
written under the key charset, is read as the charset. -/
theorem foldlM_applyQueryPair_urlQueryPairs {self : MySqlConnectOptions} (hca : self.sslCa = none)
    (hcert : self.sslClientCert = none) (hkey : self.sslClientKey = none) (hsocket : self.socket = none)
    (options : MySqlConnectOptions) :
    self.urlQueryPairs.foldlM applyQueryPair options =
      .ok { options with
        sslMode := self.sslMode
        charset := self.collation.getD self.charset
        statementCacheCapacity := self.statementCacheCapacity } := by
  cases hc : self.collation with
  | none =>
    simp only [urlQueryPairs, hca, hcert, hkey, hsocket, hc, Option.map_none, Option.toList_none, List.append_nil,
      List.cons_append, List.nil_append, List.foldlM_cons, List.foldlM_nil, applyQueryPair_sslMode,
      applyQueryPair_charset, applyQueryPair_statementCacheCapacity]
    rfl
  | some collation =>
    simp only [urlQueryPairs, hca, hcert, hkey, hsocket, hc, Option.map_none, Option.map_some, Option.toList_none,
      Option.toList_some, List.append_nil, List.cons_append, List.nil_append, List.foldlM_cons, List.foldlM_nil,
      applyQueryPair_sslMode, applyQueryPair_charset, applyQueryPair_statementCacheCapacity]
    rfl

/-- A host that starts with a colon, as an IPv6 literal does, leaves the URL
without a host: the parse fails and `build_url` panics. -/
theorem buildUrl_of_colon_host {self : MySqlConnectOptions} (huser : ∀ b ∈ self.username, isUnreserved b = true)
    {rest : List UInt8} (hhost : self.host = 0x3A :: rest)
    (hrest : ∀ b ∈ rest, 0x20 < b ∧ b ≠ 0x40 ∧ b ≠ 0x2F ∧ b ≠ 0x3F ∧ b ≠ 0x23) :
    self.buildUrl api = none := by
  have hport : ∀ b ∈ rest ++ 0x3A :: decimalBytes self.port.toNat,
      0x20 < b ∧ b ≠ 0x40 ∧ b ≠ 0x2F ∧ b ≠ 0x3F ∧ b ≠ 0x23 := by
    intro b hb
    rcases List.mem_append.mp hb with hb | hb
    · exact hrest b hb
    rcases List.mem_cons.mp hb with rfl | hb
    · decide
    -- a digit of the port
    have hdigit := isAsciiDigit_of_mem_decimalBytes hb
    simp only [isAsciiDigit, decide_eq_true_eq, UInt8.le_iff_toNat_le, UInt8.reduceToNat] at hdigit
    simp only [UInt8.lt_iff_toNat_lt, ne_eq, UInt8.ext_iff, UInt8.reduceToNat]
    omega
  have hparse := api.parse_colon_host huser hport
  rw [buildUrl, hhost, List.append_assoc, List.cons_append, List.cons_append, hparse]
  rfl

/-- **`build_url` and `parse_from_url` are not inverse**, for any `url`
crate that keeps the laws of `UrlApi`. Options with an unreserved username
and host, no password, database, certificate or socket come back as the
defaults but for the host, port, username, SSL mode and cache capacity, with
the collation, if any, as the charset and no collation; and a host that
starts with a colon makes `build_url` panic. -/
theorem build_url_loses_collation_and_colon_hosts :
    (∀ self : MySqlConnectOptions, (∀ b ∈ self.username, isUnreserved b = true) →
      (∀ b ∈ self.host, isUnreserved b = true) → self.host ≠ [] →
      self.password = none → self.database = none → self.sslCa = none → self.sslClientCert = none →
      self.sslClientKey = none → self.socket = none → Utf8.valid self.charset = true →
      (∀ c ∈ self.collation, Utf8.valid c = true) →
      ∃ url, self.buildUrl api = some url ∧
        parseFromUrl api url = .ok { new with
          host := self.host
          port := self.port
          username := if self.username = [] then new.username else self.username
          sslMode := self.sslMode
          statementCacheCapacity := self.statementCacheCapacity
          charset := self.collation.getD self.charset }) ∧
    (∀ (self : MySqlConnectOptions) (rest : List UInt8), (∀ b ∈ self.username, isUnreserved b = true) →
      self.host = 0x3A :: rest → (∀ b ∈ rest, 0x20 < b ∧ b ≠ 0x40 ∧ b ≠ 0x2F ∧ b ≠ 0x3F ∧ b ≠ 0x23) →
      self.buildUrl api = none) := by
  refine ⟨?_, fun self rest huser hhost hrest => buildUrl_of_colon_host api huser hhost hrest⟩
  intro self huser hhost hne hpassword hdatabase hca hcert hkey hsocket hcharset hcollation
  obtain ⟨url, hbuild, hhostStr, hport, husername, hnopassword, hpath, hpairs⟩ :=
    buildUrl_of_plain api huser hhost hne hpassword hdatabase
  -- appending the query pairs leaves what the crate parsed
  obtain ⟨k1, k2, k3, k4, k5⟩ := api.appendPairs_keeps url self.urlQueryPairs
  have hread := parseFromUrl_of_plain api (k1.trans hhostStr) (k2.trans hport) (k3.trans husername ▸ huser)
    (k4.trans hnopassword) (k5.trans hpath)
  refine ⟨_, hbuild, ?_⟩
  rw [hread, api.queryPairs_appendPairs url _ (urlQueryPairs_valid hca hcert hkey hsocket hcharset hcollation),
    hpairs, List.nil_append, k3.trans husername, foldlM_applyQueryPair_urlQueryPairs hca hcert hkey hsocket]

/-- The defaults with the collation utf8mb4_bin come back with that as the
charset and no collation, and the host ::1 makes `build_url` panic, for the
crates of `Lib/Url` and `Lib/PercentEncoding`. -/
theorem build_url_of_collation_and_ipv6_host :
    (∃ url, { new with collation := some (asciiBytes "utf8mb4_bin".toList) }.buildUrl urlCrate = some url ∧
      parseFromUrl urlCrate url = .ok { new with charset := asciiBytes "utf8mb4_bin".toList }) ∧
    { new with host := asciiBytes "::1".toList }.buildUrl urlCrate = none := by
  have hroot : ∀ b ∈ asciiBytes "root".toList, isUnreserved b = true :=
    List.all_eq_true.1 (by decide : (asciiBytes "root".toList).all isUnreserved = true)
  have hlocalhost : ∀ b ∈ asciiBytes "localhost".toList, isUnreserved b = true :=
    List.all_eq_true.1 (by decide : (asciiBytes "localhost".toList).all isUnreserved = true)
  obtain ⟨url, hbuild, hparse⟩ := (build_url_loses_collation_and_colon_hosts urlCrate).1
    { new with collation := some (asciiBytes "utf8mb4_bin".toList) } hroot hlocalhost (by decide) rfl rfl rfl rfl rfl
    rfl (by decide) (by decide)
  refine ⟨⟨url, hbuild, hparse.trans (by decide)⟩, ?_⟩
  exact (build_url_loses_collation_and_colon_hosts urlCrate).2 { new with host := asciiBytes "::1".toList }
    (asciiBytes ":1".toList) hroot rfl (List.all_iff_forall_prop.1 (by decide))

end MySqlConnectOptions

end Sqlx.MySql
