import Dbx.Guarantees.ReloadedSecrets

/-!
# Rows that snapshots are written to

A connection that was loaded, scrubbed for a snapshot and saved from it again
(`crates/dbx-core/src/cloud_sync.rs:837-986`, `storage.rs:3103-3143`) has a row without
secrets. Loading that row shows the secrets of the connection if the table supplies them. The
password of an MQTT connection is scrubbed too, but has no key in the table.
-/
namespace Dbx.Guarantees.WrittenRows

open Dbx.Lib.Text Dbx.Source Dbx.Source.ConnectionStore Dbx.Source.CloudSync List
open Dbx.Guarantees.ExternalSecrets Dbx.Guarantees.SnapshotSecrecy
open Dbx.Guarantees.ReloadedSecrets

variable {Rest Ai Other Blob : Type}

/-! ## A scrubbed row and its secrets -/

/-- The row that a loaded connection is written to. -/
structure Written (config row : ConnectionConfig Rest) : Prop where
  id : row.id = config.id
  saves : row.savePassword = config.savePassword
  dbType : row.dbType = config.dbType
  urlParams : config.dbType = .mongoDb → row.urlParams = config.urlParams
  layers : row.transportLayers = config.transportLayers.map TransportLayerConfig.scrubSecrets
  external : Scrubbed (secretPlaces config.dbType config.externalConfig) config.externalConfig
    row.externalConfig

variable {secrets : Secrets} {config : ConnectionConfig Rest}

variable {external : Option Json} {secrets : Secrets}

section Reloading

variable (percentDecode : Str → Str)

/-- The rows of a connection have its secrets, apart from those of layers. -/
structure Supplies (rows : Str → Option Str) (config : ConnectionConfig Rest) : Prop where
  password : (if usesMongodbOidc percentDecode config then []
    else (rows "password".toList).getD []) = config.password
  connectionString : nonEmpty (rows "connection_string".toList) = nonEmpty config.connectionString
  redisSentinelPassword :
    (rows "redis_sentinel_password".toList).getD [] = config.redisSentinelPassword
  initScript : (rows "init_script".toList).getD [] = config.initScript.getD []
  places : Stored config → ∀ place ∈ secretPlaces config.dbType config.externalConfig,
    (sectionOf place.name config.externalConfig).isSome →
      (rows place.key).getD [] = placeValue place config.externalConfig

theorem nonEmpty_getD (text : Option Str) : (nonEmpty text).getD [] = text.getD [] := by
  cases text with
  | none => rfl
  | some t => cases t <;> rfl

variable {percentDecode} {config row : ConnectionConfig Rest}

theorem Written.places (h : Written config row) (dbType : DatabaseType) :
    secretPlaces dbType row.externalConfig = secretPlaces dbType config.externalConfig :=
  secretPlaces_congr h.external.kinds

theorem secretPlaces_names {dbType : DatabaseType} {place : Place}
    (member : place ∈ secretPlaces dbType external) : place.name ≠ savedTopicsName := by
  have listed : ∀ l ∈ mqLists ++ nacosLists, ∀ place ∈ l, place.name ≠ savedTopicsName := by decide
  unfold secretPlaces at member
  split at member
  · exact listed _ (mem_append_left _ mqPlaces_listed) place member
  · exact listed _ (mem_append_right _ nacosPlaces_listed) place member
  · unfold mqttPlaces at member
    split at member
    · rw [mem_singleton.mp member]
      decide
    · cases member
  · cases member

/-- The places of a stored connection show what its rows supply. -/
theorem placeValue_reloaded (h : Written config row) (stored : Stored config)
    (supplies : Supplies percentDecode (secrets row.id) config) {place : Place}
    (member : place ∈ secretPlaces config.dbType config.externalConfig) :
    placeValue place (hydrateAll row.id (secretPlaces config.dbType config.externalConfig)
        ⟨secrets, row.externalConfig, false⟩).external =
      placeValue place config.externalConfig := by
  rw [(hydrateAll_place secretPlaces_apart row.id member _).1]
  unfold supplied
  rw [h.external.present place.name (secretPlaces_names member),
    h.external.blank place member, Option.none_or]
  split
  · rename_i found
    exact supplies.places stored place member found
  rename_i missing
  unfold placeValue
  rw [Option.not_isSome_iff_eq_none.mp missing]
  rfl

/-- What the external configuration of a reloaded connection shows. -/
theorem external_reloaded (h : Written config row) (saves : config.savePassword = true)
    (supplies : Supplies percentDecode (secrets row.id) config) :
    (secretPlaces row.dbType (loadConfig secrets row).externalConfig).map
        (fun place => placeValue place (loadConfig secrets row).externalConfig) =
      (secretPlaces config.dbType config.externalConfig).map fun place =>
        if config.dbType = .mqtt then [] else placeValue place config.externalConfig := by
  by_cases stored : Stored config
  · have rowStored : Stored row := by
      unfold Stored
      rw [h.dbType, h.saves]
      exact stored
    have notMqtt : config.dbType ≠ .mqtt := by
      unfold Stored at stored
      grind
    have loaded : (loadConfig secrets row).externalConfig =
        (hydrateAll row.id (secretPlaces config.dbType config.externalConfig)
          ⟨secrets, row.externalConfig, false⟩).external := by
      rw [loadConfig_external, hydrateExternal_stored rowStored, h.dbType, h.places]
    have places : secretPlaces row.dbType (loadConfig secrets row).externalConfig =
        secretPlaces config.dbType config.externalConfig := by
      rw [loaded, h.dbType, ← h.places]
      apply secretPlaces_congr
      intro name _
      exact authKind_hydrateAll secretPlaces_apart row.id name _
    rw [places, loaded]
    apply map_congr_left
    intro place member
    rw [if_neg notMqtt]
    exact placeValue_reloaded h stored supplies member
  · have notMq : row.dbType ≠ .messageQueue := by
      rw [h.dbType]
      exact fun mq => stored (.inl mq)
    have notNacos : row.dbType ≠ .nacos := by
      rw [h.dbType]
      exact fun nacos => stored (.inr ⟨nacos, saves⟩)
    have loaded : (loadConfig secrets row).externalConfig = row.externalConfig := by
      rw [loadConfig_external, hydrateExternal_other notMq notNacos]
    rw [loaded, h.places, h.dbType]
    apply map_congr_left
    intro place member
    have mqtt : config.dbType = .mqtt := by
      by_contra other
      rw [secretPlaces_other (h.dbType ▸ notMq) (h.dbType ▸ notNacos) other] at member
      cases member
    rw [if_pos mqtt]
    exact getD_of_nonEmpty_none (h.external.blank place member)

theorem Written.usesOidc (h : Written config row)
    (supplies : Supplies percentDecode (secrets row.id) config) :
    usesMongodbOidc percentDecode (loadConfig secrets row) = usesMongodbOidc percentDecode config :=
  usesMongodbOidc_congr (by
    have equal : (loadConfig secrets row).dbType = row.dbType := rfl
    rw [equal, h.dbType]) h.urlParams supplies.connectionString

/-- The secrets of a connection that is loaded again are the same, if those of its layers are
and it has no MQTT password. -/
theorem secretValues_reloaded (h : Written config row) (saves : config.savePassword = true)
    (supplies : Supplies percentDecode (secrets row.id) config) :
    secretValues (canonicalized percentDecode (loadConfig secrets row)) = secretValues config ↔
      layersSlots (hydrateLayers (secrets row.id)
          (config.transportLayers.map (·.scrubSecrets))) =
        layersSlots config.transportLayers ∧
      (config.dbType = .mqtt → ∀ place ∈ secretPlaces config.dbType config.externalConfig,
        placeValue place config.externalConfig = []) := by
  have keeps := canonicalized_keeps percentDecode (loadConfig secrets row)
  have password : (canonicalized percentDecode (loadConfig secrets row)).password =
      config.password := by
    rw [canonicalized_password, h.usesOidc supplies]
    exact supplies.password
  have layers : (canonicalized percentDecode (loadConfig secrets row)).transportLayers =
      hydrateLayers (secrets row.id)
        (config.transportLayers.map (·.scrubSecrets)) := by
    rw [keeps.transportLayers, ← h.layers]
    rfl
  have sentinel : (canonicalized percentDecode (loadConfig secrets row)).redisSentinelPassword =
      config.redisSentinelPassword :=
    keeps.redisSentinelPassword.trans supplies.redisSentinelPassword
  have connectionString :
      (canonicalized percentDecode (loadConfig secrets row)).connectionString.getD [] =
        config.connectionString.getD [] := by
    rw [keeps.connectionString, ← nonEmpty_getD, ← nonEmpty_getD config.connectionString]
    exact congrArg (fun text => text.getD []) supplies.connectionString
  have initScript : (canonicalized percentDecode (loadConfig secrets row)).initScript.getD [] =
      config.initScript.getD [] := by
    rw [keeps.initScript]
    exact supplies.initScript
  have external := external_reloaded h saves supplies
  have places : ∀ e, secretPlaces (canonicalized percentDecode (loadConfig secrets row)).dbType e =
      secretPlaces row.dbType e := keeps.places
  unfold secretValues
  rw [SecretValues.mk.injEq]
  simp only [password, layers, sentinel, connectionString, initScript, places,
    keeps.externalConfig, external, true_and]
  apply and_congr_right
  intro _
  rw [map_inj_left]
  constructor
  · intro same mqtt place member
    have equal := same place member
    rw [if_pos mqtt] at equal
    exact equal.symm
  · intro blank place member
    split
    · rename_i mqtt
      exact (blank mqtt place member).symm
    · rfl

end Reloading

/-! ## From a loaded connection to its row -/

section Writing

variable (percentDecode : Str → Str)

def hasTdengineProfile (config : ConnectionConfig Rest) : Bool :=
  config.driverProfile.any fun profile => eqIgnoreAsciiCase profile "tdengine".toList

/-- For a MySQL connection, only the last step of `canonicalized` does something. -/
theorem canonicalized_mysql (mysql : config.dbType = .mysql) :
    canonicalized percentDecode config = canonicalizeTdengine config := by
  have oidc : usesMongodbOidc percentDecode config = false := by
    unfold usesMongodbOidc
    rw [if_pos]
    rw [mysql]
    decide
  have sqlServer : canonicalizeSqlServer config = config := by
    unfold canonicalizeSqlServer
    rw [if_neg]
    rw [mysql]
    exact fun both => nomatch both.1
  unfold canonicalized
  rw [oidc, if_neg (by decide), sqlServer]

/-- A type is canonical at once. -/
theorem canonicalized_dbType {other : ConnectionConfig Rest}
    (dbType : other.dbType = (canonicalized percentDecode config).dbType)
    (profile : other.driverProfile = (canonicalized percentDecode config).driverProfile) :
    (canonicalized percentDecode other).dbType = (canonicalized percentDecode config).dbType := by
  have keeps := canonicalized_keeps percentDecode other
  obtain same | changed := keeps.dbType
  · exact same.trans dbType
  -- Then the configuration is a MySQL one whose profile is not changed to TDengine.
  exfalso
  have mysql : (canonicalized percentDecode config).dbType = .mysql := dbType ▸ changed.1
  have first : config.dbType = .mysql := by
    obtain same | tdengine := (canonicalized_keeps percentDecode config).dbType
    · exact same ▸ mysql
    · rw [tdengine.2] at mysql
      cases mysql
  rw [canonicalized_mysql percentDecode first] at mysql profile
  have changedType := changed.2
  rw [canonicalized_mysql percentDecode changed.1] at changedType
  by_cases tdengine : hasTdengineProfile config = true
  · unfold canonicalizeTdengine at mysql
    rw [if_pos ⟨first, tdengine⟩] at mysql
    cases mysql
  have kept : canonicalizeTdengine config = config := if_neg fun both => tdengine both.2
  rw [kept] at profile
  have plain : ¬hasTdengineProfile other = true := by
    unfold hasTdengineProfile
    rw [profile]
    exact tdengine
  have keptOther : canonicalizeTdengine other = other := if_neg fun both => plain both.2
  rw [keptOther, changed.1] at changedType
  cases changedType

/-- The scrubbing of the storage: it leaves MQTT alone. -/
def storeScrub (dbType : DatabaseType) (external : Option Json) : Option Json :=
  match dbType with
  | .messageQueue => scrubAll (mqPlaces external) external
  | .nacos => scrubAll (nacosPlaces external) external
  | _ => external

theorem sanitized_eq (config : ConnectionConfig Rest) : sanitized percentDecode config =
      { scrubFields (canonicalized percentDecode config) with
        externalConfig := storeScrub (canonicalized percentDecode config).dbType
          (canonicalized percentDecode config).externalConfig } := by
  unfold sanitized scrubMqAuthSecrets scrubMqTokenSigningSecret scrubNacosAuthSecrets storeScrub
  generalize canonicalized percentDecode config = canonical
  by_cases mq : canonical.dbType = .messageQueue
  · simp [scrubFields, mq, scrubMq_eq]
  · by_cases nacos : canonical.dbType = .nacos
    · simp [scrubFields, nacos, scrubNacosAuth_eq]
    · simp [scrubFields, mq, nacos]

section

variable {places : List Place} {original scrubbed : Option Json}
  (h : Scrubbed places original scrubbed)
include h

theorem Scrubbed.stored (dbType : DatabaseType) :
    Scrubbed places original (storeScrub dbType scrubbed) := by
  unfold storeScrub
  split
  · exact (h.scrubAll (mqPlaces_apart scrubbed).fields).mono (subset_append_right _ _)
  · exact (h.scrubAll (nacosPlaces_apart scrubbed).fields).mono (subset_append_right _ _)
  · exact h

theorem Scrubbed.mqtt : Scrubbed places original (scrubMqttAuth scrubbed) := by
  unfold scrubMqttAuth
  split
  · exact h.update authName (textAt_insertMember_ne (by decide) _)
      fun field members => textAt_insert_blank
  · exact h

theorem Scrubbed.again (dbType : DatabaseType) :
    Scrubbed places original (scrubExternal dbType scrubbed) := by
  unfold scrubExternal
  split
  · exact Scrubbed.mqtt h
  · exact (h.scrubAll (mqPlaces_apart scrubbed).fields).mono (subset_append_right _ _)
  · exact (h.scrubAll (nacosPlaces_apart scrubbed).fields).mono (subset_append_right _ _)
  · exact h

end

theorem scrubbed_mqtt : Scrubbed (mqttPlaces external) external (scrubMqttAuth external) := by
  have base := Scrubbed.mqtt (Scrubbed.refl external)
  unfold mqttPlaces
  by_cases password : authKind authName external = some passwordField
  · rw [if_pos password]
    apply base.cons
    unfold scrubMqttAuth
    rw [if_pos password]
    apply heldText_updateSection (.inl rfl)
    intro _ members _
    unfold textAt
    rw [lookup_insertMember_self]
    rfl
  · rw [if_neg password]
    exact base

theorem scrubbed_scrubAll {places : List Place} (apart : Apart places) :
    Scrubbed places external (scrubAll places external) := by
  have done := (Scrubbed.refl external).scrubAll apart.fields
  rw [append_nil] at done
  exact done

/-- The scrubbing of a snapshot empties the places of the type. -/
theorem scrubbed_scrubExternal (dbType : DatabaseType) (external : Option Json) :
    Scrubbed (secretPlaces dbType external) external (scrubExternal dbType external) := by
  unfold secretPlaces scrubExternal
  cases dbType with
  | mqtt => exact scrubbed_mqtt
  | messageQueue => exact scrubbed_scrubAll (mqPlaces_apart external)
  | nacos => exact scrubbed_scrubAll (nacosPlaces_apart external)
  | _ => exact Scrubbed.refl external

theorem scrubLayers_idem (layers : List (TransportLayerConfig Rest)) :
    (layers.map (·.scrubSecrets)).map (·.scrubSecrets) =
      layers.map (·.scrubSecrets) := by
  rw [map_map]
  apply map_congr_left
  intro layer _
  cases layer <;> rfl

/-- Subscriptions change one member of the external configuration. -/
structure TopicsOnly (before after : ConnectionConfig Rest) : Prop where
  fields : { after with externalConfig := before.externalConfig } = before
  sections : ∀ name, name ≠ savedTopicsName →
    sectionOf name after.externalConfig = sectionOf name before.externalConfig

theorem TopicsOnly.refl (config : ConnectionConfig Rest) : TopicsOnly config config :=
  ⟨rfl, fun _ _ => rfl⟩

theorem TopicsOnly.trans {first second third : ConnectionConfig Rest}
    (one : TopicsOnly first second) (two : TopicsOnly second third) : TopicsOnly first third := by
  constructor
  · have fields : { { third with externalConfig := second.externalConfig } with
        externalConfig := first.externalConfig } =
        { second with externalConfig := first.externalConfig } :=
      congrArg (fun config : ConnectionConfig Rest =>
        { config with externalConfig := first.externalConfig }) two.fields
    exact fields.trans one.fields
  · intro name other
    exact (two.sections name other).trans (one.sections name other)

/-- The row of a loaded connection. -/
theorem written_of_topics {loaded applied : ConnectionConfig Rest}
    (canonical : loaded = canonicalized percentDecode config)
    (topics : TopicsOnly (scrubConnectionSecrets loaded) applied) :
    Written loaded (sanitized percentDecode (scrubConnectionSecrets applied)) := by
  have field : ∀ {α : Type} (f : ConnectionConfig Rest → α),
      f { applied with externalConfig := (scrubConnectionSecrets loaded).externalConfig } =
        f (scrubConnectionSecrets loaded) := fun f => congrArg f topics.fields
  rw [scrubConnectionSecrets_eq] at field
  have id : applied.id = loaded.id := field ConnectionConfig.id
  have saves : applied.savePassword = loaded.savePassword := field ConnectionConfig.savePassword
  have dbType : applied.dbType = loaded.dbType := field ConnectionConfig.dbType
  have profile : applied.driverProfile = loaded.driverProfile :=
    field ConnectionConfig.driverProfile
  have urlParams : applied.urlParams = loaded.urlParams := field ConnectionConfig.urlParams
  have layers : applied.transportLayers =
      loaded.transportLayers.map (·.scrubSecrets) :=
    field ConnectionConfig.transportLayers
  have external : Scrubbed (secretPlaces loaded.dbType loaded.externalConfig)
      loaded.externalConfig applied.externalConfig := by
    have before := scrubbed_scrubExternal loaded.dbType loaded.externalConfig
    apply before.trans
    · have sections := topics.sections
      rw [scrubConnectionSecrets_eq] at sections
      exact sections
    · exact fun place member => secretPlaces_names member
  have keeps := canonicalized_keeps percentDecode (scrubConnectionSecrets applied)
  have canonicalType : (canonicalized percentDecode (scrubConnectionSecrets applied)).dbType =
      loaded.dbType := by
    rw [canonical]
    apply canonicalized_dbType percentDecode
    · rw [← canonical, scrubConnectionSecrets_eq]
      exact dbType
    · rw [← canonical, scrubConnectionSecrets_eq]
      exact profile
  rw [sanitized_eq]
  rw [scrubConnectionSecrets_eq] at keeps canonicalType ⊢
  constructor
  · exact keeps.id.trans id
  · exact keeps.savePassword.trans saves
  · exact canonicalType
  · intro mongo
    exact (keeps.urlParams (dbType.trans mongo)).trans urlParams
  · have kept := congrArg (List.map (·.scrubSecrets)) keeps.transportLayers
    apply kept.trans
    have scrubbed : (scrubFields applied).transportLayers =
        applied.transportLayers.map (·.scrubSecrets) := rfl
    rw [scrubbed, layers, scrubLayers_idem, scrubLayers_idem]
  · have kept := keeps.externalConfig
    rw [kept]
    exact Scrubbed.stored (Scrubbed.again external applied.dbType) _

/-! ## The rows that stay -/

theorem loaded_places (stored : Stored config) :
    secretPlaces config.dbType (loadConfig secrets config).externalConfig =
      secretPlaces config.dbType config.externalConfig := by
  rw [loadConfig_external, hydrateExternal_stored stored]
  exact secretPlaces_hydrateAll

theorem isSome_hydrateSection {id name key field name' : Str} {h : Hydration} :
    (sectionOf name' (hydrateSection id name key field h).external).isSome =
      (sectionOf name' h.external).isSome := by
  obtain same | changed := hydrateSection_external id name key field h
  · rw [same]
  · obtain ⟨secret, _, same⟩ := changed
    rw [same, isSome_updateSection]

theorem isSome_hydrateAll (id name : Str) (places : List Place) (h : Hydration) :
    (sectionOf name (hydrateAll id places h).external).isSome =
      (sectionOf name h.external).isSome := by
  induction places generalizing h with
  | nil => rfl
  | cons place places ih =>
    exact (ih _).trans isSome_hydrateSection

/-- After loading, the rows of a connection have the secrets that were loaded. -/
theorem supplies_kept (saves : config.savePassword = true) :
    Supplies percentDecode ((hydrateExternal config secrets).secrets config.id)
      (canonicalized percentDecode (loadConfig secrets config)) := by
  have keeps := canonicalized_keeps percentDecode (loadConfig secrets config)
  constructor
  · rw [keeps.usesMongodbOidc percentDecode, canonicalized_password,
      hydrateExternal_row saves (by decide)]
    rfl
  · rw [keeps.connectionString, hydrateExternal_row saves (by decide)]
    rfl
  · rw [keeps.redisSentinelPassword, hydrateExternal_row saves (by decide)]
    rfl
  · rw [keeps.initScript, hydrateExternal_row saves (by decide)]
    rfl
  · intro canonicalStored place member found
    have stored : Stored config := keeps.stored.mp canonicalStored
    rw [keeps.externalConfig] at member found ⊢
    rw [keeps.places] at member
    have listed : place ∈ secretPlaces config.dbType config.externalConfig :=
      loaded_places stored ▸ member
    have loaded : (loadConfig secrets config).externalConfig =
        (hydrateAll config.id (secretPlaces config.dbType config.externalConfig)
          ⟨secrets, config.externalConfig, false⟩).external := by
      rw [← hydrateExternal_stored stored]
      rfl
    rw [loaded, isSome_hydrateAll] at found
    rw [loaded, hydrateExternal_stored stored, (hydrateAll_place secretPlaces_apart _ listed _).2,
      (hydrateAll_place secretPlaces_apart _ listed _).1]
    unfold supplied
    rw [if_pos found]

/-- And so do its layers. -/
theorem layers_kept (saves : config.savePassword = true) :
    hydrateLayers ((hydrateExternal config secrets).secrets config.id)
        ((canonicalized percentDecode (loadConfig secrets config)).transportLayers.map
          TransportLayerConfig.scrubSecrets) =
      (canonicalized percentDecode (loadConfig secrets config)).transportLayers := by
  have keeps := canonicalized_keeps percentDecode (loadConfig secrets config)
  have loaded : (loadConfig secrets config).transportLayers =
      hydrateLayers (secrets config.id) config.transportLayers := rfl
  rw [keeps.transportLayers, loaded, hydrateLayers_scrub]
  apply hydrateLayers_congr
  intro key layer
  exact hydrateExternal_row saves layer.plain secrets

end Writing

end Dbx.Guarantees.WrittenRows
