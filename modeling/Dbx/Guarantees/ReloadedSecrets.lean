import Dbx.Guarantees.SnapshotSecrecy

/-!
# Secrets of loaded connections

What `load_connections` (`crates/dbx-core/src/storage.rs:3373-3478`) returns for a row and a
table of secrets: connections with different ids do not disturb each other, a secret in the
JSON counts before its row, and a row whose configuration was scrubbed shows what its rows
supply.
-/
namespace Dbx.Guarantees.ReloadedSecrets

open Dbx.Lib.Text Dbx.Source Dbx.Source.ConnectionStore Dbx.Source.CloudSync List Option
open Dbx.Guarantees.ExternalSecrets Dbx.Guarantees.SnapshotSecrecy

variable {Rest Ai Other : Type}

/-! ## Values -/

/-- The text at a place; empty if there is none. -/
def placeValue (place : Place) (external : Option Json) : Str :=
  ((sectionOf place.name external).bind (textAt place.field)).getD []

/-- The secrets of a layer with their keys. -/
def layerSlots (index : Nat) : TransportLayerConfig Rest → List (Str × Str)
  | .ssh layer =>
    [(transportLayerSshPasswordKey index layer.id, layer.password),
      (transportLayerSshKeyPassphraseKey index layer.id, layer.keyPassphrase)]
  | .proxy layer => [(transportLayerProxyPasswordKey index layer.id, layer.password)]
  | .httpTunnel layer => [(transportLayerHttpTunnelTokenKey index layer.id, layer.token)]

def layersSlots (layers : List (TransportLayerConfig Rest)) : List (Str × Str) :=
  (layers.mapIdx layerSlots).flatten

/-- The secret values of a connection, those of layers with their keys. A secret that is absent
is empty. -/
structure SecretValues where
  password : Str
  layers : List (Str × Str)
  redisSentinelPassword : Str
  connectionString : Str
  initScript : Str
  external : List Str
  deriving DecidableEq, Repr

def secretValues (config : ConnectionConfig Rest) : SecretValues where
  password := config.password
  layers := layersSlots config.transportLayers
  redisSentinelPassword := config.redisSentinelPassword
  connectionString := config.connectionString.getD []
  initScript := config.initScript.getD []
  external := (secretPlaces config.dbType config.externalConfig).map fun place =>
    placeValue place config.externalConfig

/-! ## Rows that do not disturb each other -/

def readables (rows : List (Row Rest)) : List (ConnectionConfig Rest) :=
  rows.filterMap fun
    | .readable config => some config
    | .unreadable _ _ => none

variable (id : Str)

/-- The same for one connection. -/
abbrev SameFor (h h' : Hydration) : Prop :=
  h.external = h'.external ∧ h.secrets id = h'.secrets id

/-- A row of the table matters to its own connection only. -/
theorem hydrateSection_congr (name key field : Str) {h h' : Hydration} (same : SameFor id h h') :
    SameFor id (hydrateSection id name key field h) (hydrateSection id name key field h') := by
  obtain ⟨external, rows⟩ := same
  unfold hydrateSection
  rw [external, rows]
  split
  · exact ⟨external, rows⟩
  split
  · apply And.intro rfl
    funext k
    simp [setSecret, rows]
  · split
    · exact ⟨rfl, rows⟩
    · exact ⟨external, rows⟩

theorem hydrateAll_congr {places : List Place} {h h' : Hydration} (same : SameFor id h h') :
    SameFor id (hydrateAll id places h) (hydrateAll id places h') := by
  induction places generalizing h h' with
  | nil => exact same
  | cons place places ih =>
    exact ih (hydrateSection_congr id place.name place.key place.field same)

variable (config : ConnectionConfig Rest)

theorem hydrateExternal_congr {s t : Secrets} (rows : s config.id = t config.id) :
    SameFor config.id (hydrateExternal config s) (hydrateExternal config t) := by
  rcases stored_cases config with stored | ⟨nacos, forgets⟩ | ⟨mq, nacos⟩
  · rw [hydrateExternal_stored stored, hydrateExternal_stored stored]
    exact hydrateAll_congr config.id ⟨rfl, rows⟩
  · have forgotS := hydrateExternal_forgetting nacos forgets s
    have forgotT := hydrateExternal_forgetting nacos forgets t
    apply And.intro (forgotS.1.trans forgotT.1.symm)
    rw [forgotS.2, forgotT.2]
    funext k
    simp only [deleteSecretPrefix, rows]
  · rw [hydrateExternal_other mq nacos, hydrateExternal_other mq nacos]
    exact ⟨rfl, rows⟩

theorem loadConfig_external {secrets : Secrets} : (loadConfig secrets config).externalConfig =
    (hydrateExternal config secrets).external := rfl

theorem loadConfig_congr {s t : Secrets} (rows : s config.id = t config.id) :
    loadConfig s config = loadConfig t config := by
  unfold loadConfig
  rw [(hydrateExternal_congr config rows).1, rows]

variable {config : ConnectionConfig Rest} {place : Place}

variable {rows : List (Row Rest)} {f : List (Str × Json) → List (Str × Json)}

section Loading

variable (percentDecode : Str → Str)

/-- Rows of other connections are not touched. -/
theorem hydrateExternal_id {i : Str} (different : i ≠ config.id) (secrets : Secrets) :
    (hydrateExternal config secrets).secrets i = secrets i := by
  funext k
  exact hydrateExternal_secrets (.inl different)

/-- Each connection is loaded as if it were the only one. -/
theorem loadRows_configs (distinct : ((readables rows).map ConnectionConfig.id).Nodup)
    (secrets : Secrets) :
    (loadRows percentDecode rows secrets).1 =
      (readables rows).map fun config =>
        canonicalized percentDecode (loadConfig secrets config) := by
  induction rows generalizing secrets with
  | nil => rfl
  | cons row rows ih =>
    cases row with
    | unreadable id text => exact ih distinct secrets
    | readable config =>
      have fresh := nodup_cons.mp distinct
      have rest := ih fresh.2 (hydrateExternal config secrets).secrets
      have same : (readables rows).map (fun other => canonicalized percentDecode
            (loadConfig (hydrateExternal config secrets).secrets other)) =
          (readables rows).map fun other => canonicalized percentDecode
            (loadConfig secrets other) := by
        apply map_congr_left
        intro other member
        have different : other.id ≠ config.id :=
          fun equal => fresh.1 (equal ▸ mem_map_of_mem member)
        rw [loadConfig_congr other (hydrateExternal_id different secrets)]
      rw [loadRows_readable, rest, same]
      rfl

/-- The rows of an id that no connection has. -/
theorem loadRows_frame {i : Str} (absent : i ∉ (readables rows).map (·.id)) (secrets : Secrets) :
    (loadRows percentDecode rows secrets).2.2 i = secrets i := by
  induction rows generalizing secrets with
  | nil => rfl
  | cons row rows ih =>
    cases row with
    | unreadable id text => exact ih absent secrets
    | readable config =>
      have different : i ≠ config.id := fun equal => absent (equal ▸ mem_cons_self)
      have rest := ih (fun member => absent (mem_cons_of_mem _ member))
        (hydrateExternal config secrets).secrets
      exact rest.trans (hydrateExternal_id different secrets)

/-- The rows of a connection after loading. -/
theorem loadRows_secrets (distinct : ((readables rows).map ConnectionConfig.id).Nodup)
    (secrets : Secrets) (member : config ∈ readables rows) :
    (loadRows percentDecode rows secrets).2.2 config.id =
      (hydrateExternal config secrets).secrets config.id := by
  induction rows generalizing secrets with
  | nil => cases member
  | cons row rows ih =>
    cases row with
    | unreadable id text => exact ih distinct secrets member
    | readable first =>
      have fresh := nodup_cons.mp distinct
      have later : (loadRows percentDecode (.readable first :: rows) secrets).2.2 =
          (loadRows percentDecode rows (hydrateExternal first secrets).secrets).2.2 := rfl
      rw [later]
      cases mem_cons.mp member with
      | inr inside =>
        have different : config.id ≠ first.id :=
          fun equal => fresh.1 (equal ▸ mem_map_of_mem inside)
        rw [ih fresh.2 _ inside]
        exact (hydrateExternal_congr config (hydrateExternal_id different secrets)).2
      | inl same =>
        subst same
        exact loadRows_frame percentDecode fresh.1 _

end Loading

/-! ## What a place shows -/

/-- The secret that the JSON holds. -/
def heldText (place : Place) (external : Option Json) : Option Str :=
  nonEmpty ((sectionOf place.name external).bind (textAt place.field))

/-- The value of a place: the secret in the JSON, or else that of the row, if there is an
object for it. -/
def supplied (place : Place) (external : Option Json) (row : Option Str) : Str :=
  if (sectionOf place.name external).isSome then ((heldText place external).or row).getD [] else []

theorem getD_of_nonEmpty_none {text : Option Str} (empty : nonEmpty text = none) :
    text.getD [] = [] := by
  cases text with
  | none => rfl
  | some t =>
    cases t with
    | nil => rfl
    | cons c t => cases empty

theorem nonEmpty_some {text : Option Str} {t : Str} (found : nonEmpty text = some t) :
    text = some t :=
  (filter_eq_some_iff.mp found).1

theorem placeValue_hydrateSection_self (place : Place) (h : Hydration) :
    placeValue place (hydrateSection id place.name place.key place.field h).external =
      supplied place h.external (h.secrets id place.key) := by
  unfold placeValue supplied heldText hydrateSection
  cases found : sectionOf place.name h.external with
  | none => simp [found]
  | some members =>
    cases held : nonEmpty (textAt place.field members) with
    | some secret =>
      simpa [found, held] using congrArg (·.getD []) (nonEmpty_some held)
    | none =>
      cases row : h.secrets id place.key with
      | none => simp [found, held, row, getD_of_nonEmpty_none held]
      | some secret =>
        have written : textAt place.field (insertMember place.field (.string secret) members) =
            some secret := by
          simp [textAt, Json.asStr]
        simp [found, held, row, sectionOf_updateSection_self, written]

theorem placeValue_hydrateSection_ne {other : Place} (different : other.name ≠ place.name)
    {id : Str} {h : Hydration} :
    placeValue other (hydrateSection id place.name place.key place.field h).external =
      placeValue other h.external := by
  unfold placeValue
  rw [sectionOf_hydrateSection_ne different]

section Places

variable {places : List Place}

theorem placeValue_hydrateAll_ne (different : place.name ∉ places.map Place.name) (h : Hydration) :
    placeValue place (hydrateAll id places h).external = placeValue place h.external := by
  induction places generalizing h with
  | nil => rfl
  | cons first places ih =>
    rw [map_cons, mem_cons, not_or] at different
    exact (ih different.2 _).trans (placeValue_hydrateSection_ne different.1)

theorem hydrateSection_row (place : Place) (h : Hydration) :
    (hydrateSection id place.name place.key place.field h).secrets id place.key =
      (heldText place h.external).or (h.secrets id place.key) := by
  unfold hydrateSection heldText
  cases sectionOf place.name h.external with
  | none => rfl
  | some members =>
    simp only [bind_some]
    cases nonEmpty (textAt place.field members) with
    | some secret => simp [setSecret]
    | none =>
      cases row : h.secrets id place.key with
      | none | some => exact row

/-- Each place shows its own secret, and a secret in the JSON is moved to its row. -/
theorem hydrateAll_place (apart : Apart places) (id : Str) (member : place ∈ places)
    (h : Hydration) :
    placeValue place (hydrateAll id places h).external =
        supplied place h.external (h.secrets id place.key) ∧
      (hydrateAll id places h).secrets id place.key =
        (heldText place h.external).or (h.secrets id place.key) := by
  induction places generalizing h with
  | nil => cases member
  | cons first places ih =>
    have freshName := (nodup_cons.mp apart.names).1
    have freshKey := (nodup_cons.mp apart.keys).1
    have step : hydrateAll id (first :: places) h =
        hydrateAll id places (hydrateSection id first.name first.key first.field h) := rfl
    rw [step]
    obtain same | later := mem_cons.mp member
    · subst same
      rw [placeValue_hydrateAll_ne id freshName, hydrateAll_secrets_ne fun both => freshKey both.2]
      exact ⟨placeValue_hydrateSection_self id place h, hydrateSection_row id place h⟩
    have name : place.name ≠ first.name :=
      fun equal => freshName (equal ▸ mem_map_of_mem later)
    have key : ¬(id = id ∧ place.key = first.key) :=
      fun both => freshKey (both.2 ▸ mem_map_of_mem later)
    have rest := ih apart.tail later (hydrateSection id first.name first.key first.field h)
    unfold supplied heldText at rest ⊢
    rwa [sectionOf_hydrateSection_ne name, hydrateSection_secrets_ne key] at rest

end Places

/-! ## Scrubbed external configurations -/

/-- What scrubbing keeps of an external configuration, for some places: the kinds and the
objects, with nothing in the fields. -/
structure Scrubbed (places : List Place) (original scrubbed : Option Json) : Prop where
  kinds : ∀ name, name ≠ savedTopicsName → authKind name scrubbed = authKind name original
  present : ∀ name, name ≠ savedTopicsName →
    (sectionOf name scrubbed).isSome = (sectionOf name original).isSome
  blank : ∀ place ∈ places, heldText place scrubbed = none

section

variable {field other : Str} {members : List (Str × Json)}
  (blank : nonEmpty (textAt other members) = none)
include blank

theorem textAt_insert_blank :
    nonEmpty (textAt other (insertMember field (.string []) members)) = none := by
  by_cases same : other = field
  · subst same
    unfold textAt
    rw [lookup_insertMember_self]
    rfl
  · rw [textAt_insertMember_ne same]
    exact blank

theorem textAt_scrub_blank : nonEmpty (textAt other (scrubJsonSecret field members)) = none := by
  unfold scrubJsonSecret
  split
  · exact textAt_insert_blank blank
  · exact blank

end

theorem textAt_scrub_self {field : Str} {members : List (Str × Json)} :
    nonEmpty (textAt field (scrubJsonSecret field members)) = none := by
  unfold scrubJsonSecret textAt
  split
  · rw [lookup_insertMember_self]
    rfl
  · rename_i absent
    rw [not_isSome_iff_eq_none.mp absent]
    rfl

section Scrubbed

variable {places : List Place} {original scrubbed : Option Json}

theorem isSome_updateSection {name name' : Str} {external : Option Json} :
    (sectionOf name (updateSection name' f external)).isSome = (sectionOf name external).isSome := by
  by_cases same : name = name'
  · subst same
    rw [sectionOf_updateSection_self, isSome_map]
  · rw [sectionOf_updateSection_ne same]

theorem heldText_updateSection {name : Str} {external : Option Json}
    (before : place.name = name ∨ heldText place external = none)
    (empty : place.name = name → ∀ members, sectionOf name external = some members →
      nonEmpty (textAt place.field (f members)) = none) :
    heldText place (updateSection name f external) = none := by
  unfold heldText at before ⊢
  by_cases same : place.name = name
  · rw [same, sectionOf_updateSection_self]
    cases found : sectionOf name external with
    | none => rfl
    | some members => exact empty same members found
  · rw [sectionOf_updateSection_ne same]
    exact before.resolve_left same

/-- A change that keeps the kind and leaves what is empty as it is. -/
theorem Scrubbed.update (h : Scrubbed places original scrubbed) (name : Str)
    (kind : ∀ members, textAt "kind".toList (f members) = textAt "kind".toList members)
    (empty : ∀ field members, nonEmpty (textAt field members) = none →
      nonEmpty (textAt field (f members)) = none) :
    Scrubbed places original (updateSection name f scrubbed) where
  kinds := fun other plain =>
    (authKind_updateSection kind name other scrubbed).trans (h.kinds other plain)
  present := fun other plain =>
    isSome_updateSection.trans (h.present other plain)
  blank := by
    intro place member
    have before := h.blank place member
    apply heldText_updateSection (.inr before)
    intro same members found
    unfold heldText at before
    rw [same, found] at before
    exact empty place.field members before

/-- One more place is scrubbed. -/
theorem Scrubbed.cons (h : Scrubbed places original scrubbed) (place : Place)
    (own : heldText place scrubbed = none) : Scrubbed (place :: places) original scrubbed :=
  { h with blank := forall_mem_cons.mpr ⟨own, h.blank⟩ }

theorem Scrubbed.refl (original : Option Json) : Scrubbed [] original original :=
  ⟨fun _ _ => rfl, fun _ _ => rfl, nofun⟩

theorem Scrubbed.mono {fewer : List Place} (h : Scrubbed places original scrubbed)
    (subset : fewer ⊆ places) : Scrubbed fewer original scrubbed :=
  ⟨h.kinds, h.present, fun place member => h.blank place (subset member)⟩

theorem Scrubbed.scrubAll {more : List Place} (h : Scrubbed places original scrubbed)
    (fields : ∀ place ∈ more, place.field ≠ "kind".toList) :
    Scrubbed (more ++ places) original (scrubAll more scrubbed) := by
  induction more generalizing places scrubbed with
  | nil => exact h
  | cons place more ih =>
    have notKind := fields place mem_cons_self
    have step := h.update place.name (textAt_scrubJsonSecret_ne (Ne.symm notKind))
      (fun field members => textAt_scrub_blank)
    have own : heldText place
        (updateSection place.name (scrubJsonSecret place.field) scrubbed) = none :=
      heldText_updateSection (.inl rfl) fun _ members _ => textAt_scrub_self
    have rest := ih (step.cons place own)
      (forall_mem_cons.mp fields).2
    apply rest.mono
    intro other member
    simp only [cons_append, mem_cons, mem_append] at member ⊢
    tauto

theorem Scrubbed.trans {middle : Option Json} (h : Scrubbed places original middle)
    (kinds : ∀ name, name ≠ savedTopicsName → sectionOf name scrubbed = sectionOf name middle)
    (names : ∀ place ∈ places, place.name ≠ savedTopicsName) :
    Scrubbed places original scrubbed where
  kinds := by
    intro name plain
    unfold authKind
    rw [kinds name plain]
    exact h.kinds name plain
  present := by
    intro name plain
    rw [kinds name plain]
    exact h.present name plain
  blank := by
    intro place member
    unfold heldText
    rw [kinds place.name (names place member)]
    exact h.blank place member

end Scrubbed

/-! ## Rows that loading leaves alone -/

theorem hydrateExternal_row (saves : config.savePassword = true) {key : Str}
    (plain : key ∉ placeKeys) (secrets : Secrets) :
    (hydrateExternal config secrets).secrets config.id key = secrets config.id key := by
  by_cases stored : Stored config
  · rw [hydrateExternal_stored stored, hydrateAll_secrets_ne]
    rintro ⟨_, inside⟩
    obtain ⟨place, member, rfl⟩ := mem_map.mp inside
    exact plain (secretPlaces_keys stored member)
  · rw [hydrateExternal_other fun mq => stored (.inl mq)]
    exact fun nacos => stored (.inr ⟨nacos, saves⟩)

/-- The keys of layers, also the older ones, begin with one of three letters. -/
abbrev LayerKey (key : Str) : Prop := key.head? ∈ [some 't', some 's', some 'p']

theorem LayerKey.plain {key : Str} (layer : LayerKey key) : key ∉ placeKeys := by
  have heads : ∀ k ∈ placeKeys, k.head? ∉ [some 't', some 's', some 'p'] := by decide
  exact fun member => heads key member layer

theorem hydrateLayer_congr {x y : Str → Option Str} (same : ∀ key, LayerKey key → x key = y key)
    {index : Nat} {layer : TransportLayerConfig Rest} :
    hydrateLayer x index layer = hydrateLayer y index layer := by
  have transport : ∀ suffix id, x (transportLayerKey suffix index id) =
      y (transportLayerKey suffix index id) := fun suffix id => same _ (by
    show some 't' ∈ _
    decide)
  have tunnelPassword : ∀ id, x (sshTunnelPasswordKey index id) =
      y (sshTunnelPasswordKey index id) := fun id => same _ (by
    show some 's' ∈ _
    decide)
  have tunnelPassphrase : ∀ id, x (sshTunnelKeyPassphraseKey index id) =
      y (sshTunnelKeyPassphraseKey index id) := fun id => same _ (by
    show some 's' ∈ _
    decide)
  have password := same "ssh_password".toList (by decide)
  have passphrase := same "ssh_key_passphrase".toList (by decide)
  have proxy := same "proxy_password".toList (by decide)
  cases layer <;>
    simp only [hydrateLayer, transportLayerSshPasswordKey, transportLayerSshKeyPassphraseKey,
      transportLayerProxyPasswordKey, transportLayerHttpTunnelTokenKey, transport, tunnelPassword,
      tunnelPassphrase, password, passphrase, proxy]

theorem hydrateLayers_congr {x y : Str → Option Str}
    (same : ∀ key, LayerKey key → x key = y key) (layers : List (TransportLayerConfig Rest)) :
    hydrateLayers x layers = hydrateLayers y layers := by
  unfold hydrateLayers
  congr 1
  funext index layer
  exact hydrateLayer_congr same

/-- What a layer held before does not matter. -/
theorem hydrateLayers_scrub (x y : Str → Option Str) (layers : List (TransportLayerConfig Rest)) :
    hydrateLayers x ((hydrateLayers y layers).map TransportLayerConfig.scrubSecrets) =
      hydrateLayers x layers := by
  unfold hydrateLayers
  apply ext_getElem?
  intro index
  rw [getElem?_mapIdx, getElem?_map, getElem?_mapIdx, getElem?_mapIdx]
  cases layers[index]? with
  | none => rfl
  | some layer => cases layer <;> rfl

/-! ## The canonical form keeps secrets -/

/-- What the canonical form of a configuration has in common with it. -/
structure Keeps (before after : ConnectionConfig Rest) : Prop where
  id : after.id = before.id
  savePassword : after.savePassword = before.savePassword
  transportLayers : after.transportLayers = before.transportLayers
  redisSentinelPassword : after.redisSentinelPassword = before.redisSentinelPassword
  connectionString : after.connectionString = before.connectionString
  initScript : after.initScript = before.initScript
  externalConfig : after.externalConfig = before.externalConfig
  urlParams : before.dbType = .mongoDb → after.urlParams = before.urlParams
  dbType : after.dbType = before.dbType ∨ (before.dbType = .mysql ∧ after.dbType = .tdengine)

section Canonical

variable (percentDecode : Str → Str)

section

variable {before after : ConnectionConfig Rest} (h : Keeps before after)
  (same : after.dbType = before.dbType)
include h same

theorem Keeps.sqlServer : Keeps before (canonicalizeSqlServer after) ∧
      (canonicalizeSqlServer after).dbType = before.dbType := by
  unfold canonicalizeSqlServer
  split
  · rename_i legacy
    have other : before.dbType ≠ .mongoDb := by
      rw [← same, legacy.1]
      decide
    exact ⟨{ h with urlParams := fun mongo => absurd mongo other, dbType := .inl same }, same⟩
  · exact ⟨h, same⟩

theorem Keeps.tdengine : Keeps before (canonicalizeTdengine after) := by
  unfold canonicalizeTdengine
  split
  · rename_i tdengine
    exact { h with dbType := .inr ⟨same ▸ tdengine.1, rfl⟩ }
  · exact h

end

theorem canonicalized_keeps (config : ConnectionConfig Rest) :
    Keeps config (canonicalized percentDecode config) := by
  have first : Keeps config
      (if usesMongodbOidc percentDecode config then canonicalizeOidc config else config) := by
    split <;> exact ⟨rfl, rfl, rfl, rfl, rfl, rfl, rfl, fun _ => rfl, .inl rfl⟩
  have same : (if usesMongodbOidc percentDecode config then canonicalizeOidc config
      else config).dbType = config.dbType := by
    split <;> rfl
  have second := first.sqlServer same
  exact second.1.tdengine second.2

theorem canonicalized_password (config : ConnectionConfig Rest) :
    (canonicalized percentDecode config).password =
      if usesMongodbOidc percentDecode config then [] else config.password := by
  have sqlServer : ∀ c : ConnectionConfig Rest, (canonicalizeSqlServer c).password = c.password := by
    intro c
    unfold canonicalizeSqlServer
    split <;> rfl
  have tdengine : ∀ c : ConnectionConfig Rest, (canonicalizeTdengine c).password = c.password := by
    intro c
    unfold canonicalizeTdengine
    split <;> rfl
  unfold canonicalized
  rw [tdengine, sqlServer]
  split <;> rfl

end Canonical

section Kept

variable {before after : ConnectionConfig Rest}

theorem Keeps.places (h : Keeps before after) (external : Option Json) :
    secretPlaces after.dbType external = secretPlaces before.dbType external := by
  obtain same | changed := h.dbType
  · rw [same]
  · rw [changed.1, changed.2]
    rfl

theorem Keeps.dbType_eq (h : Keeps before after) {dbType : DatabaseType} (mysql : dbType ≠ .mysql)
    (tdengine : dbType ≠ .tdengine) : after.dbType = dbType ↔ before.dbType = dbType := by
  obtain same | changed := h.dbType
  · rw [same]
  · rw [changed.1, changed.2]
    exact ⟨fun equal => absurd equal.symm tdengine, fun equal => absurd equal.symm mysql⟩

theorem Keeps.stored (h : Keeps before after) : Stored after ↔ Stored before := by
  unfold Stored
  rw [h.dbType_eq (by decide) (by decide), h.dbType_eq (by decide) (by decide), h.savePassword]

/-- The same connection string (or none that counts) and parameters decide on OIDC. -/
theorem usesMongodbOidc_congr {percentDecode : Str → Str}
    (dbType : after.dbType = .mongoDb ↔ before.dbType = .mongoDb)
    (urlParams : before.dbType = .mongoDb → after.urlParams = before.urlParams)
    (strings : nonEmpty after.connectionString = nonEmpty before.connectionString) :
    usesMongodbOidc percentDecode after = usesMongodbOidc percentDecode before := by
  have blank : ∀ text : Option Str, text.filter (fun value => !(trim value).isEmpty) =
      (nonEmpty text).filter fun value => !(trim value).isEmpty := by
    intro text
    cases text with
    | none => rfl
    | some t =>
      cases t with
      | nil | cons => rfl
  unfold usesMongodbOidc
  by_cases mongo : before.dbType = .mongoDb
  · rw [if_neg (not_not.mpr mongo), if_neg (not_not.mpr (dbType.mpr mongo)),
      blank after.connectionString, strings, ← blank, urlParams mongo]
  · rw [if_pos mongo, if_pos fun equal => mongo (dbType.mp equal)]

theorem Keeps.usesMongodbOidc (h : Keeps before after) (percentDecode : Str → Str) :
    usesMongodbOidc percentDecode after = usesMongodbOidc percentDecode before :=
  usesMongodbOidc_congr (h.dbType_eq (by decide) (by decide)) h.urlParams
    (congrArg nonEmpty h.connectionString)

end Kept

end Dbx.Guarantees.ReloadedSecrets
