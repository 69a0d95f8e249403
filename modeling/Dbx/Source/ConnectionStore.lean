import Dbx.Source.DatabaseType
import Dbx.Source.MongoFilter

/-!
# Saved connections and their secrets

Model of the parts of `crates/dbx-core/src/storage.rs` that load connections and save their
metadata (`1050-1160`, `1715-1810`, `3054-3143`, `3373-3573`, `4707-4920`), with
`ConnectionConfig::canonicalized` (`models/connection.rs:985-1022`, `1649-1709`,
`1994-2017`). A connection is a row with its configuration; its secrets stand in a table of
their own, by the id of the connection and a key, and are put into the configuration when it
is loaded. Secrets that a message queue or Nacos configuration still holds in its JSON are
moved to that table.

Every row is written under the id of its configuration, so the model has that id once.
Failures of the database are left out, apart from ids that repeat. Fields of a configuration
or a layer that are not read here are one field `rest`. Percent decoding is a parameter.
-/
namespace Dbx.Source.ConnectionStore

open Dbx.Lib.Text

/-! ## JSON objects -/

def asObject : Json → Option (List (Str × Json))
  | .object members => some members
  | _ => none

/-- `Value::get` with a key. -/
def getMember (key : Str) (value : Json) : Option Json :=
  (asObject value).bind fun members => members.lookup key

/-- `Map::insert`: a key that exists keeps its place. -/
def insertMember (key : Str) (value : Json) : List (Str × Json) → List (Str × Json)
  | [] => [(key, value)]
  | (k, v) :: members =>
    if k = key then (key, value) :: members else (k, v) :: insertMember key value members

/-- The text under a key. -/
def textAt (key : Str) (members : List (Str × Json)) : Option Str :=
  (members.lookup key).bind Json.asStr

def nonEmpty (text : Option Str) : Option Str := text.filter fun t => !t.isEmpty

/-- `scrub_json_secret` -/
def scrubJsonSecret (field : Str) (members : List (Str × Json)) : List (Str × Json) :=
  if (members.lookup field).isSome then insertMember field (.string []) members else members

/-! ## Configurations -/

structure SshTunnelConfig (Rest : Type) where
  id : Str
  password : Str
  keyPassphrase : Str
  rest : Rest
  deriving DecidableEq

structure ProxyTunnelConfig (Rest : Type) where
  id : Str
  password : Str
  rest : Rest
  deriving DecidableEq

structure HttpTunnelConfig (Rest : Type) where
  id : Str
  token : Str
  rest : Rest
  deriving DecidableEq

inductive TransportLayerConfig (Rest : Type) where
  | ssh (layer : SshTunnelConfig Rest)
  | proxy (layer : ProxyTunnelConfig Rest)
  | httpTunnel (layer : HttpTunnelConfig Rest)
  deriving DecidableEq

structure ConnectionConfig (Rest : Type) where
  id : Str
  dbType : DatabaseType
  driverProfile : Option Str
  driverLabel : Option Str
  urlParams : Option Str
  port : Nat
  password : Str
  savePassword : Bool
  transportLayers : List (TransportLayerConfig Rest)
  redisSentinelPassword : Str
  connectionString : Option Str
  initScript : Option Str
  externalConfig : Option Json
  rest : Rest

variable {Rest : Type}

namespace TransportLayerConfig

def id : TransportLayerConfig Rest → Str
  | ssh layer => layer.id
  | proxy layer => layer.id
  | httpTunnel layer => layer.id

def scrubSecrets : TransportLayerConfig Rest → TransportLayerConfig Rest
  | ssh layer => ssh { layer with password := [], keyPassphrase := [] }
  | proxy layer => proxy { layer with password := [] }
  | httpTunnel layer => httpTunnel { layer with token := [] }

end TransportLayerConfig

/-! ## The canonical form -/

/-- `split_once` at a character. -/
def splitOnce (separator : Char) (text : Str) : Option (Str × Str) :=
  if separator ∈ text then
    some (text.takeWhile (· != separator), (text.dropWhile (· != separator)).drop 1)
  else none

section Canonical

variable (percentDecode : Str → Str)

def mongoUrlParamEquals (part expectedKey expectedValue : Str) : Bool :=
  match splitOnce '=' part with
  | none => false
  | some (key, value) =>
    eqIgnoreAsciiCase (trim key) expectedKey &&
      eqIgnoreAsciiCase (trim (percentDecode value)) expectedValue

def mongoUrlParamsUseOidc (value : Str) : Bool :=
  ((value.dropWhile (· == '?')).splitOn '&').any fun part =>
    mongoUrlParamEquals percentDecode part "authMechanism".toList "MONGODB-OIDC".toList

def startsWithIgnoreCase (start text : Str) : Bool :=
  start.length ≤ text.length && eqIgnoreAsciiCase (text.take start.length) start

def mongoConnectionStringUsesOidc (value : Str) : Bool :=
  let value := trim value
  if startsWithIgnoreCase "mongodb://".toList value ||
      startsWithIgnoreCase "mongodb+srv://".toList value then
    match splitOnce '?' value with
    | some (_, query) => mongoUrlParamsUseOidc percentDecode (query.takeWhile (· != '#'))
    | none => false
  else false

def usesMongodbOidc (config : ConnectionConfig Rest) : Bool :=
  if config.dbType ≠ .mongoDb then false
  else
    match config.connectionString.filter fun value => !(trim value).isEmpty with
    | some connectionString => mongoConnectionStringUsesOidc percentDecode connectionString
    | none => config.urlParams.any (mongoUrlParamsUseOidc percentDecode)

/-- The scan of `sqlserver_url_param_parts`: the parts with the separator before each, from
the part that is being read. -/
def sqlserverParts (inBraces : Bool) (separator : Option Char) (part : Str) :
    Str → List (Option Char × Str)
  | [] => [(separator, part)]
  | c :: rest =>
    if inBraces then
      match c, rest with
      | '\x7d', '\x7d' :: rest => sqlserverParts true separator (part ++ ['\x7d', '\x7d']) rest
      | '\x7d', rest => sqlserverParts false separator (part ++ ['\x7d']) rest
      | c, rest => sqlserverParts true separator (part ++ [c]) rest
    else if c = '\x7b' then sqlserverParts true separator (part ++ [c]) rest
    else if c = '&' ∨ c = ';' then (separator, part) :: sqlserverParts false (some c) [] rest
    else sqlserverParts false separator (part ++ [c]) rest
  termination_by text => text.length

def sqlserverUrlParamParts (params : Option Str) : List (Option Char × Str) :=
  sqlserverParts false none [] ((trim (params.getD [])).dropWhile (· == '?'))

def disabledWords : List Str :=
  ["disabled".toList, "disable".toList, "false".toList, "0".toList, "off".toList, "no".toList]

def sqlserverLegacyCompatibilityPart (part : Str) : Bool :=
  match splitOnce '=' part with
  | none => false
  | some (key, value) =>
    eqIgnoreAsciiCase (trim key) "sqlserverEncryption".toList &&
      disabledWords.contains (toAsciiLowercase (trim value))

def sqlserverLegacyCompatibilityParam (params : Option Str) : Bool :=
  (sqlserverUrlParamParts params).any fun part => sqlserverLegacyCompatibilityPart part.2

def withoutSqlserverLegacyCompatibilityParam (params : Option Str) : Option Str :=
  let retained := (sqlserverUrlParamParts params).filter fun part =>
    !(trim part.2).isEmpty && !sqlserverLegacyCompatibilityPart part.2
  match retained with
  | [] => none
  | first :: others => some (first.2 ++ others.flatMap fun part => part.1.toList ++ part.2)

section

variable (config : ConnectionConfig Rest)

/-- The first step of `canonicalized`, where the connection uses OIDC. -/
def canonicalizeOidc : ConnectionConfig Rest :=
  { config with
    password := []
    driverProfile := some "mongodb".toList
    driverLabel := some "MongoDB".toList }

/-- The second. -/
def canonicalizeSqlServer : ConnectionConfig Rest :=
  if config.dbType = .sqlServer ∧ sqlserverLegacyCompatibilityParam config.urlParams = true then
    { config with
      driverProfile := some "sqlserver-legacy".toList
      driverLabel := some "SQL Server legacy compatibility component".toList
      urlParams := withoutSqlserverLegacyCompatibilityParam config.urlParams }
  else config

/-- The third. -/
def canonicalizeTdengine : ConnectionConfig Rest :=
  if config.dbType = .mysql ∧
      config.driverProfile.any (fun profile => eqIgnoreAsciiCase profile "tdengine".toList) then
    { config with
      dbType := .tdengine
      port := if config.port = 0 ∨ config.port = 6030 then 6041 else config.port
      driverProfile := some "tdengine".toList
      driverLabel :=
        if (trim (config.driverLabel.getD [])).isEmpty then some "TDengine".toList
        else config.driverLabel }
  else config

def canonicalized : ConnectionConfig Rest :=
  canonicalizeTdengine (canonicalizeSqlServer
    (if usesMongodbOidc percentDecode config then canonicalizeOidc config else config))

end

end Canonical

/-! ## Names of secrets -/

def mqAuthTokenKey : Str := "mq.auth.token".toList
def mqAuthPasswordKey : Str := "mq.auth.password".toList
def mqAuthApiKeyValueKey : Str := "mq.auth.api_key_value".toList
def mqAuthClientSecretKey : Str := "mq.auth.client_secret".toList
def mqTokenSigningKey : Str := "mq.token_signing.key".toList
def nacosAuthSecretPrefix : Str := "nacos.auth.".toList
def nacosAuthPasswordKey : Str := "nacos.auth.password".toList
def nacosRnacosConsolePasswordKey : Str := "nacos.auth.rnacos_console_password".toList

def transportLayerSecretSegment (index : Nat) (id : Str) : Str :=
  if (trim id).isEmpty then (toString index).toList else trim id

def transportLayerKey (suffix : Str) (index : Nat) (id : Str) : Str :=
  "transport_layers.".toList ++ transportLayerSecretSegment index id ++ '.' :: suffix

def transportLayerSshPasswordKey : Nat → Str → Str := transportLayerKey "ssh_password".toList
def transportLayerSshKeyPassphraseKey : Nat → Str → Str :=
  transportLayerKey "ssh_key_passphrase".toList
def transportLayerProxyPasswordKey : Nat → Str → Str := transportLayerKey "proxy_password".toList
def transportLayerHttpTunnelTokenKey : Nat → Str → Str :=
  transportLayerKey "http_tunnel_token".toList

/-- Unlike the segment of a layer, the id is not trimmed. -/
def sshTunnelSecretSegment (index : Nat) (id : Str) : Str :=
  if (trim id).isEmpty then (toString index).toList else id

def sshTunnelPasswordKey (index : Nat) (id : Str) : Str :=
  "ssh_tunnels.".toList ++ sshTunnelSecretSegment index id ++ ".password".toList

def sshTunnelKeyPassphraseKey (index : Nat) (id : Str) : Str :=
  "ssh_tunnels.".toList ++ sshTunnelSecretSegment index id ++ ".key_passphrase".toList

def isApiKeyAuthKind (kind : Str) : Bool :=
  kind == "apiKey".toList || kind == "api_key".toList || kind == "apikey".toList

/-- The secret of a kind of message queue authentication: its key and its field. -/
def mqAuthSecret (kind : Option Str) : Option (Str × Str) :=
  match kind with
  | none => none
  | some kind =>
    if kind = "token".toList then some (mqAuthTokenKey, "token".toList)
    else if kind = "basic".toList then some (mqAuthPasswordKey, "password".toList)
    else if isApiKeyAuthKind kind then some (mqAuthApiKeyValueKey, "value".toList)
    else if kind = "oauth2".toList then some (mqAuthClientSecretKey, "clientSecret".toList)
    else none

/-! ## Objects inside the external configuration -/

/-- The object under a name, as `mq_auth_object` and its siblings find it. -/
def sectionOf (name : Str) (external : Option Json) : Option (List (Str × Json)) :=
  (external.bind (getMember name)).bind asObject

/-- The same object, changed in its place. -/
def updateSection (name : Str) (f : List (Str × Json) → List (Str × Json)) :
    Option Json → Option Json
  | some (.object all) =>
    match (all.lookup name).bind asObject with
    | some members => some (.object (insertMember name (.object (f members)) all))
    | none => some (.object all)
  | external => external

def authKind (name : Str) (external : Option Json) : Option Str :=
  (sectionOf name external).bind (textAt "kind".toList)

def authName : Str := "auth".toList
def tokenSigningName : Str := "tokenSigning".toList
def rnacosConsoleAuthName : Str := "rnacosConsoleAuth".toList
def usernamePassword : Str := "usernamePassword".toList
def passwordField : Str := "password".toList
def signingField : Str := "key".toList

/-- The scrubbing of message queue authentication, in any external configuration. -/
def scrubMqAuth (external : Option Json) : Option Json :=
  match mqAuthSecret (authKind authName external) with
  | some (_, field) => updateSection authName (scrubJsonSecret field) external
  | none => external

def scrubMqTokenSigning (external : Option Json) : Option Json :=
  updateSection tokenSigningName (scrubJsonSecret signingField) external

/-- The scrubbing of one of the two Nacos logins. -/
def scrubNacosLogin (name : Str) (external : Option Json) : Option Json :=
  if authKind name external = some usernamePassword then
    updateSection name (scrubJsonSecret passwordField) external
  else external

def scrubNacosAuth (external : Option Json) : Option Json :=
  scrubNacosLogin rnacosConsoleAuthName (scrubNacosLogin authName external)

def scrubMqAuthSecrets (config : ConnectionConfig Rest) : ConnectionConfig Rest :=
  if config.dbType = .messageQueue then
    { config with externalConfig := scrubMqAuth config.externalConfig }
  else config

def scrubMqTokenSigningSecret (config : ConnectionConfig Rest) : ConnectionConfig Rest :=
  if config.dbType = .messageQueue then
    { config with externalConfig := scrubMqTokenSigning config.externalConfig }
  else config

def scrubNacosAuthSecrets (config : ConnectionConfig Rest) : ConnectionConfig Rest :=
  if config.dbType = .nacos then
    { config with externalConfig := scrubNacosAuth config.externalConfig }
  else config

/-! ## The table of secrets -/

/-- By the id of the connection and the key. -/
abbrev Secrets := Str → Str → Option Str

def setSecret (id key secret : Str) (secrets : Secrets) : Secrets :=
  fun i k => if i = id ∧ k = key then some secret else secrets i k

def deleteSecret (id key : Str) (secrets : Secrets) : Secrets :=
  fun i k => if i = id ∧ k = key then none else secrets i k

/-- `LIKE` with a prefix ignores the case of letters. -/
def deleteSecretPrefix (id start : Str) (secrets : Secrets) : Secrets :=
  fun i k => if i = id ∧ startsWithIgnoreCase start k = true then none else secrets i k

/-! ## Loading -/

/-- What a step of loading changes: the secrets, the external configuration, and whether the
row has to be written again. -/
structure Hydration where
  secrets : Secrets
  external : Option Json
  rewrite : Bool

/-- `hydrate_mq_json_secret`, on the object under a name. -/
def hydrateSection (id name key field : Str) (h : Hydration) : Hydration :=
  match sectionOf name h.external with
  | none => h
  | some members =>
    match nonEmpty (textAt field members) with
    | some secret => { h with secrets := setSecret id key secret h.secrets, rewrite := true }
    | none =>
      match h.secrets id key with
      | some secret =>
        { h with external := updateSection name (insertMember field (.string secret)) h.external }
      | none => h

def hydrateMqAuthSecrets (config : ConnectionConfig Rest) (h : Hydration) : Hydration :=
  if config.dbType = .messageQueue then
    match mqAuthSecret (authKind authName h.external) with
    | some (key, field) => hydrateSection config.id authName key field h
    | none => h
  else h

def hydrateMqTokenSigningSecret (config : ConnectionConfig Rest) (h : Hydration) : Hydration :=
  if config.dbType = .messageQueue then
    hydrateSection config.id tokenSigningName mqTokenSigningKey signingField h
  else h

def hydrateNacosLogin (id name key : Str) (h : Hydration) : Hydration :=
  if authKind name h.external = some usernamePassword then
    hydrateSection id name key passwordField h
  else h

/-- The password of a login that is still in the JSON. -/
def nacosLoginHolds (name : Str) (external : Option Json) : Bool :=
  authKind name external == some usernamePassword &&
    (nonEmpty ((sectionOf name external).bind (textAt passwordField))).isSome

def hydrateNacosAuthSecret (config : ConnectionConfig Rest) (h : Hydration) : Hydration :=
  if config.dbType = .nacos then
    if config.savePassword then
      hydrateNacosLogin config.id rnacosConsoleAuthName nacosRnacosConsolePasswordKey
        (hydrateNacosLogin config.id authName nacosAuthPasswordKey h)
    else
      ⟨deleteSecretPrefix config.id nacosAuthSecretPrefix h.secrets, scrubNacosAuth h.external,
        h.rewrite || nacosLoginHolds authName h.external ||
          nacosLoginHolds rnacosConsoleAuthName h.external⟩
  else h

/-- The secrets of a layer, with the names they had before layers. -/
def hydrateLayer (secrets : Str → Option Str) (index : Nat) :
    TransportLayerConfig Rest → TransportLayerConfig Rest
  | .ssh layer =>
    let legacyPassword := if layer.id = "legacy".toList then secrets "ssh_password".toList
      else secrets (sshTunnelPasswordKey index layer.id)
    let legacyPassphrase := if layer.id = "legacy".toList then secrets "ssh_key_passphrase".toList
      else secrets (sshTunnelKeyPassphraseKey index layer.id)
    .ssh { layer with
      password := ((secrets (transportLayerSshPasswordKey index layer.id)).or legacyPassword).getD []
      keyPassphrase :=
        ((secrets (transportLayerSshKeyPassphraseKey index layer.id)).or legacyPassphrase).getD [] }
  | .proxy layer =>
    let legacyPassword := if layer.id = "legacy-proxy".toList then secrets "proxy_password".toList
      else none
    .proxy { layer with
      password :=
        ((secrets (transportLayerProxyPasswordKey index layer.id)).or legacyPassword).getD [] }
  | .httpTunnel layer =>
    .httpTunnel { layer with
      token := (secrets (transportLayerHttpTunnelTokenKey index layer.id)).getD [] }

def hydrateLayers (secrets : Str → Option Str) (layers : List (TransportLayerConfig Rest)) :
    List (TransportLayerConfig Rest) :=
  layers.mapIdx (hydrateLayer secrets)

/-- The secrets outside the external configuration. -/
def hydrateFields (secrets : Str → Option Str) (config : ConnectionConfig Rest) :
    ConnectionConfig Rest :=
  { config with
    password := (secrets "password".toList).getD []
    transportLayers := hydrateLayers secrets config.transportLayers
    redisSentinelPassword := (secrets "redis_sentinel_password".toList).getD []
    connectionString := secrets "connection_string".toList
    initScript := secrets "init_script".toList }

def hydrateExternal (config : ConnectionConfig Rest) (secrets : Secrets) : Hydration :=
  hydrateNacosAuthSecret config (hydrateMqTokenSigningSecret config
    (hydrateMqAuthSecrets config ⟨secrets, config.externalConfig, false⟩))

inductive Row (Rest : Type) where
  | readable (config : ConnectionConfig Rest)
  | unreadable (id text : Str)

def Row.id : Row Rest → Str
  | .readable config => config.id
  | .unreadable id _ => id

section Loading

variable (percentDecode : Str → Str)

/-- A configuration with its secrets. -/
def loadConfig (secrets : Secrets) (config : ConnectionConfig Rest) : ConnectionConfig Rest :=
  { hydrateFields (secrets config.id) config with
    externalConfig := (hydrateExternal config secrets).external }

/-- What the row of a configuration is after it was loaded. -/
def reloadedRow (secrets : Secrets) (config : ConnectionConfig Rest) : ConnectionConfig Rest :=
  if (hydrateExternal config secrets).rewrite then
    scrubNacosAuthSecrets (scrubMqTokenSigningSecret (scrubMqAuthSecrets
      (canonicalized percentDecode (loadConfig secrets config))))
  else config

/-- The loaded connections, the rows and the secrets afterwards. -/
def loadRows : List (Row Rest) → Secrets → List (ConnectionConfig Rest) × List (Row Rest) × Secrets
  | [], secrets => ([], [], secrets)
  | .unreadable id text :: rows, secrets =>
    let (configs, rows, secrets) := loadRows rows secrets
    (configs, .unreadable id text :: rows, secrets)
  | .readable config :: rows, secrets =>
    let (configs, rows', secrets') := loadRows rows (hydrateExternal config secrets).secrets
    (canonicalized percentDecode (loadConfig secrets config) :: configs,
      .readable (reloadedRow percentDecode secrets config) :: rows', secrets')

/-- The tables that are read and written here; `other` stands for the layout, the pinned
nodes, the saved queries and the settings. The ids of connections are a primary key. -/
structure Storage (Rest Ai Other : Type) where
  rows : List (Row Rest)
  secrets : Secrets
  tunnelProfiles : List (TransportLayerConfig Rest)
  aiConfigs : Ai
  other : Other

variable {Ai Other : Type}

def loadConnections (storage : Storage Rest Ai Other) :
    List (ConnectionConfig Rest) × Storage Rest Ai Other :=
  let (configs, rows, secrets) := loadRows percentDecode storage.rows storage.secrets
  (configs, { storage with rows := rows, secrets := secrets })

/-! ## Saving -/

/-- A configuration as it is written. -/
def sanitized (config : ConnectionConfig Rest) : ConnectionConfig Rest :=
  scrubNacosAuthSecrets (scrubMqTokenSigningSecret (scrubMqAuthSecrets
    { canonicalized percentDecode config with
      password := []
      transportLayers := (canonicalized percentDecode config).transportLayers.map
        TransportLayerConfig.scrubSecrets
      redisSentinelPassword := []
      connectionString := none
      initScript := none }))

/-- A connection that does not save its password loses the one it had. -/
def forgetPasswords (config : ConnectionConfig Rest) (secrets : Secrets) : Secrets :=
  if config.savePassword then secrets
  else deleteSecretPrefix config.id nacosAuthSecretPrefix
    (deleteSecret config.id "password".toList secrets)

def uniqueFailed (table : Str) : Str :=
  "UNIQUE constraint failed: ".toList ++ table ++ ".id".toList

def saveConnectionMetadataPreservingSecrets (configs : List (ConnectionConfig Rest))
    (storage : Storage Rest Ai Other) : Except Str (Storage Rest Ai Other) :=
  let ids := configs.map ConnectionConfig.id
  if ids.Nodup then
    let preserved := storage.rows.filter fun
      | .readable _ => false
      | .unreadable id _ => !ids.contains id
    let secrets := configs.foldl (fun secrets config => forgetPasswords config secrets)
      storage.secrets
    let retained := preserved.map Row.id ++ ids
    .ok { storage with
      rows := preserved ++ configs.map fun config => .readable (sanitized percentDecode config)
      secrets := fun id key => if retained.contains id then secrets id key else none }
  else .error (uniqueFailed "connections".toList)

end Loading

section Profiles

variable {Ai Other : Type}

def saveTunnelProfiles (profiles : List (TransportLayerConfig Rest))
    (storage : Storage Rest Ai Other) : Except Str (Storage Rest Ai Other) :=
  if profiles.any fun profile => (trim profile.id).isEmpty then
    .error "Tunnel profile id must not be empty".toList
  else if (profiles.map TransportLayerConfig.id).Nodup then
    .ok { storage with tunnelProfiles := profiles }
  else .error (uniqueFailed "tunnel_profiles".toList)

def keepIfEmpty (current previous : Str) : Str := if current.isEmpty then previous else current

def mergeMissingTunnelProfileSecrets :
    TransportLayerConfig Rest → TransportLayerConfig Rest → TransportLayerConfig Rest
  | .ssh current, .ssh previous =>
    .ssh { current with
      password := keepIfEmpty current.password previous.password
      keyPassphrase := keepIfEmpty current.keyPassphrase previous.keyPassphrase }
  | .proxy current, .proxy previous =>
    .proxy { current with password := keepIfEmpty current.password previous.password }
  | .httpTunnel current, .httpTunnel previous =>
    .httpTunnel { current with token := keepIfEmpty current.token previous.token }
  | profile, _ => profile

def saveTunnelProfilesPreservingSecrets (profiles : List (TransportLayerConfig Rest))
    (storage : Storage Rest Ai Other) : Except Str (Storage Rest Ai Other) :=
  saveTunnelProfiles (profiles.map fun profile =>
    match storage.tunnelProfiles.reverse.find? fun previous => previous.id == profile.id with
    | some previous => mergeMissingTunnelProfileSecrets profile previous
    | none => profile) storage

end Profiles

end Dbx.Source.ConnectionStore
