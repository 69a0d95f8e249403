import Dbx.Guarantees.WrittenRows

/-!
# Secrets that a payload carries

What `build_sensitive_payload` pushes for the connections of a storage, and the rows that
`apply_connection_secrets` makes of it (`crates/dbx-core/src/cloud_sync.rs:996-1078`,
`1182-1271`). Each connection pushes its secrets with their keys; an empty one is left out,
and where a key occurs twice the last one counts.
-/
namespace Dbx.Guarantees.PushedSecrets

open Dbx.Lib.Text Dbx.Source Dbx.Source.ConnectionStore Dbx.Source.CloudSync List Option
open Dbx.Guarantees.ExternalSecrets Dbx.Guarantees.SnapshotSecrecy
open Dbx.Guarantees.ReloadedSecrets Dbx.Guarantees.WrittenRows

variable {Rest Ai Other Blob : Type}

/-! ## Rows that are set one after another -/

def setSlot (rows : Str → Option Str) (slot : Str × Str) : Str → Option Str :=
  fun key => if key = slot.1 ∧ slot.2 ≠ [] then some slot.2 else rows key

def setSlots (rows : Str → Option Str) (slots : List (Str × Str)) : Str → Option Str :=
  slots.foldl setSlot rows

/-- A row is as before, or has one of the secrets that were set for it. -/
theorem setSlots_cases (slots : List (Str × Str)) (rows : Str → Option Str) (key : Str) :
    (setSlots rows slots key = rows key ∧ ∀ slot ∈ slots, slot.1 = key → slot.2 = []) ∨
      ∃ slot ∈ slots, slot.1 = key ∧ setSlots rows slots key = some slot.2 := by
  induction slots generalizing rows with
  | nil => exact .inl ⟨rfl, fun _ member => nomatch member⟩
  | cons first slots ih =>
    cases ih (setSlot rows first) with
    | inr set =>
      obtain ⟨slot, member, same, value⟩ := set
      exact .inr ⟨slot, mem_cons_of_mem _ member, same, value⟩
    | inl kept =>
      by_cases here : key = first.1 ∧ first.2 ≠ []
      · have value : setSlots rows (first :: slots) key = some first.2 :=
          kept.1.trans (if_pos here)
        exact .inr ⟨first, mem_cons_self, here.1.symm, value⟩
      have value : setSlots rows (first :: slots) key = rows key := kept.1.trans (if_neg here)
      apply Or.inl
      apply And.intro value
      intro slot member same
      cases mem_cons.mp member with
      | inr later => exact kept.2 slot later same
      | inl equal =>
        subst equal
        by_contra filled
        exact here ⟨same.symm, filled⟩

def noRows : Str → Option Str := fun _ => none

theorem setSlots_absent {slots : List (Str × Str)} {key : Str}
    (absent : ∀ slot ∈ slots, slot.1 ≠ key) : setSlots noRows slots key = none := by
  obtain kept | set := setSlots_cases slots noRows key
  · exact kept.1
  · obtain ⟨slot, member, same, _⟩ := set
    exact absurd same (absent slot member)

variable {slot : Str × Str} {external : Option Json} {place : Place} {dbType : DatabaseType}
  {name : Str × Option Str}

/-- A secret can be read back if no other one was set for its key. -/
theorem setSlots_value {slots : List (Str × Str)} (member : slot ∈ slots)
    (agree : ∀ other ∈ slots, other.1 = slot.1 → other.2 = slot.2) :
    (setSlots noRows slots slot.1).getD [] = slot.2 := by
  obtain kept | set := setSlots_cases slots noRows slot.1
  · rw [kept.1, kept.2 slot member rfl]
    rfl
  · obtain ⟨other, inside, same, value⟩ := set
    rw [value]
    exact agree other inside same

/-! ## What a connection pushes -/

def slotsAt (places : List Place) (external : Option Json) : List (Str × Str) :=
  places.map fun place => (place.key, placeValue place external)

/-- The secrets of a connection with their keys, in the order of the payload. -/
def configSlots (config : ConnectionConfig Rest) : List (Str × Str) :=
  [("password".toList, config.password), ("init_script".toList, config.initScript.getD [])] ++
  layersSlots config.transportLayers ++
  [("redis_sentinel_password".toList, config.redisSentinelPassword),
    ("connection_string".toList, config.connectionString.getD [])] ++
  slotsAt (mqPlaces config.externalConfig) config.externalConfig ++
  (if config.dbType = .nacos then
    slotsAt (nacosPlaces config.externalConfig) config.externalConfig else [])

def pushSlots (id : Str) (slots : List (Str × Str)) : List ConnectionSecretSnapshot :=
  slots.flatMap fun slot => pushSecret id slot.1 slot.2

theorem pushSlots_append (id : Str) (slots others : List (Str × Str)) :
    pushSlots id (slots ++ others) = pushSlots id slots ++ pushSlots id others :=
  flatMap_append

theorem pushSlots_layers (id : Str) (layers : List (TransportLayerConfig Rest)) :
    (layers.mapIdx (pushLayerSecrets id)).flatten = pushSlots id (layersSlots layers) := by
  unfold pushSlots layersSlots
  rw [flatMap_def, map_flatten, flatten_flatten, List.map_map]
  congr 1
  apply ext_getElem?
  intro index
  rw [getElem?_map, getElem?_mapIdx, getElem?_mapIdx]
  cases layers[index]? with
  | none => rfl
  | some layer => cases layer <;> simp [layerSlots, pushLayerSecrets]

theorem pushSlots_mq (config : ConnectionConfig Rest) : pushMqExternalConfigSecrets config =
      pushSlots config.id (slotsAt (mqPlaces config.externalConfig) config.externalConfig) := by
  unfold pushMqExternalConfigSecrets mqPlaces slotsAt
  cases mqAuthSecret (authKind authName config.externalConfig) with
  | none | some => simp [pushSlots, pushSectionSecret, placeValue]

theorem pushSlots_login (id name key : Str) (external : Option Json) :
    pushNacosLogin id name key external =
      pushSlots id (slotsAt (loginPlaces name key external) external) := by
  unfold pushNacosLogin loginPlaces slotsAt
  split
  · simp [pushSlots, pushSectionSecret, placeValue]
  · rfl

theorem pushSlots_nacos (config : ConnectionConfig Rest) : pushNacosExternalConfigSecrets config =
      pushSlots config.id (if config.dbType = .nacos then
        slotsAt (nacosPlaces config.externalConfig) config.externalConfig else []) := by
  unfold pushNacosExternalConfigSecrets
  split
  · rw [pushSlots_login, pushSlots_login, ← pushSlots_append]
    unfold nacosPlaces slotsAt
    rw [map_append]
  · rfl

variable {config : ConnectionConfig Rest} {layers : List (TransportLayerConfig Rest)}

theorem connectionSecrets_eq (saves : config.savePassword = true) :
    connectionSecrets config = pushSlots config.id (configSlots config) := by
  unfold connectionSecrets configSlots
  rw [if_pos saves, if_pos saves, pushSlots_layers, pushSlots_mq, pushSlots_nacos,
    pushSlots_append, pushSlots_append, pushSlots_append, pushSlots_append]
  simp [pushSlots]

/-! ## Keys -/

/-- The secrets outside layers and the external configuration. -/
def plainSlots (config : ConnectionConfig Rest) : List (Str × Str) :=
  [("password".toList, config.password), ("init_script".toList, config.initScript.getD []),
    ("redis_sentinel_password".toList, config.redisSentinelPassword),
    ("connection_string".toList, config.connectionString.getD [])]

def plainKeys : List Str :=
  ["password".toList, "init_script".toList, "redis_sentinel_password".toList,
    "connection_string".toList]

theorem plainSlots_keys :
    (plainSlots config).map Prod.fst = plainKeys := rfl

theorem layersSlots_key (member : slot ∈ layersSlots layers) :
    ∃ segment suffix, slot.1 = "transport_layers.".toList ++ (segment ++ '.' :: suffix) := by
  obtain ⟨slots, inside, found⟩ := mem_flatten.mp member
  obtain ⟨index, bound, rfl⟩ := mem_mapIdx.mp inside
  have shape : ∀ suffix index id, ∃ segment rest, transportLayerKey suffix index id =
      "transport_layers.".toList ++ (segment ++ '.' :: rest) :=
    fun suffix index id => ⟨transportLayerSecretSegment index id, suffix,
      append_assoc _ _ _⟩
  cases layer : layers[index] with
  | ssh tunnel =>
    rw [layer] at found
    obtain first | second := mem_cons.mp found
    · rw [first]
      exact shape _ _ _
    · rw [mem_singleton.mp second]
      exact shape _ _ _
  | proxy | httpTunnel =>
    rw [layer] at found
    rw [mem_singleton.mp found]
    exact shape _ _ _

/-- The places that are pushed for an external configuration. -/
def pushedPlaces (dbType : DatabaseType) (external : Option Json) : List Place :=
  mqPlaces external ++ if dbType = .nacos then nacosPlaces external else []

theorem mem_pushedPlaces : place ∈ pushedPlaces dbType external ↔
    place ∈ mqPlaces external ∨ dbType = .nacos ∧ place ∈ nacosPlaces external := by
  by_cases nacos : dbType = .nacos <;> simp [pushedPlaces, nacos]

theorem mem_configSlots : slot ∈ configSlots config ↔ slot ∈ plainSlots config ∨
    slot ∈ layersSlots config.transportLayers ∨
    ∃ place ∈ pushedPlaces config.dbType config.externalConfig,
      slot = (place.key, placeValue place config.externalConfig) := by
  by_cases nacos : config.dbType = .nacos <;>
    simp [configSlots, plainSlots, pushedPlaces, slotsAt, nacos, eq_comm] <;> grind

theorem mqPlaces_head (member : place ∈ mqPlaces external) : place.key.head? = some 'm' :=
  (by decide : ∀ l ∈ mqLists, ∀ place ∈ l, place.key.head? = some 'm') _ mqPlaces_listed place
    member

theorem nacosPlaces_head (member : place ∈ nacosPlaces external) : place.key.head? = some 'n' :=
  (by decide : ∀ l ∈ nacosLists, ∀ place ∈ l, place.key.head? = some 'n') _ nacosPlaces_listed
    place member

section

variable (member : place ∈ pushedPlaces dbType external)
include member

/-- Places with one key are one place. -/
theorem pushedPlaces_inj {other : Place} (member' : other ∈ pushedPlaces dbType external)
    (same : other.key = place.key) :
    other = place := by
  obtain mq | ⟨_, nacos⟩ := mem_pushedPlaces.mp member
  · obtain mq' | ⟨_, nacos'⟩ := mem_pushedPlaces.mp member'
    · exact inj_on_of_nodup_map (mqPlaces_apart external).keys mq' mq same
    · have heads := (mqPlaces_head mq).symm.trans
        ((congrArg head? same.symm).trans (nacosPlaces_head nacos'))
      cases heads
  · obtain mq' | ⟨_, nacos'⟩ := mem_pushedPlaces.mp member'
    · have heads := (mqPlaces_head mq').symm.trans
        ((congrArg head? same).trans (nacosPlaces_head nacos))
      cases heads
    · exact inj_on_of_nodup_map (nacosPlaces_apart external).keys nacos' nacos same

theorem pushedPlaces_head : place.key.head? ∈ [some 'm', some 'n'] := by
  obtain mq | ⟨_, nacos⟩ := mem_pushedPlaces.mp member
  · rw [mqPlaces_head mq]
    decide
  · rw [nacosPlaces_head nacos]
    decide

theorem pushedPlaces_key : place.key ∈ placeKeys := by
  obtain mq | ⟨_, nacos⟩ := mem_pushedPlaces.mp member
  · exact mqPlaces_key mq
  · exact nacosPlaces_key nacos

end

theorem plainSlots_head (member : slot ∈ plainSlots config) :
    slot.1.head? ∈ [some 'p', some 'i', some 'r', some 'c'] := by
  have heads : ∀ key ∈ plainKeys, key.head? ∈ [some 'p', some 'i', some 'r', some 'c'] := by decide
  apply heads
  rw [← plainSlots_keys]
  exact mem_map_of_mem member

theorem layersSlots_head (member : slot ∈ layersSlots layers) : slot.1.head? = some 't' := by
  obtain ⟨segment, suffix, same⟩ := layersSlots_key member
  rw [same]
  rfl

/-- The first characters of keys tell the kinds of secrets apart. -/
theorem heads_apart {head : Option Char} {first second : List (Option Char)} (one : head ∈ first)
    (two : head ∈ second) (apart : ∀ c ∈ first, c ∉ second) : False :=
  apart head one two

/-! ## Rows after a restore -/

/-- The rows of a connection that had none, after its secrets were applied. -/
def restoredRows (config : ConnectionConfig Rest) : Str → Option Str :=
  setSlots noRows (configSlots config)

theorem restored_plain (member : slot ∈ plainSlots config) :
    (restoredRows config slot.1).getD [] = slot.2 := by
  have head := plainSlots_head member
  apply setSlots_value (mem_configSlots.mpr (.inl member))
  intro other inside same
  rw [← same] at head
  obtain (plain | layer | ⟨place, pushed, equal⟩) := mem_configSlots.mp inside
  · have distinct : ((plainSlots config).map Prod.fst).Nodup := by
      rw [plainSlots_keys]
      decide
    rw [inj_on_of_nodup_map distinct plain member same]
  · rw [layersSlots_head layer] at head
    exact absurd head (by decide)
  · rw [equal] at head
    exact (heads_apart head (pushedPlaces_head pushed) (by decide)).elim

theorem restored_place (member : place ∈ pushedPlaces config.dbType config.externalConfig) :
    (restoredRows config place.key).getD [] = placeValue place config.externalConfig := by
  apply setSlots_value (mem_configSlots.mpr (.inr (.inr ⟨place, member, rfl⟩)))
  intro other inside same
  have head := pushedPlaces_head member
  obtain (plain | layer | ⟨place', pushed, equal⟩) := mem_configSlots.mp inside
  · have plainHead := plainSlots_head plain
    rw [same] at plainHead
    exact (heads_apart head plainHead (by decide)).elim
  · rw [← show other.1 = place.key from same, layersSlots_head layer] at head
    exact absurd head (by decide)
  · subst equal
    rw [pushedPlaces_inj member pushed same]

/-- The older names of secrets are not pushed. -/
theorem restored_older {key : Str} (older : key.head? = some 's' ∨ key = "proxy_password".toList) :
    restoredRows config key = none := by
  have heads : ∀ k ∈ plainKeys, k.head? ≠ some 's' := by decide
  obtain ⟨notLayer, notPlain, notPlace⟩ : key.head? ≠ some 't' ∧ key ∉ plainKeys ∧
      key.head? ∉ [some 'm', some 'n'] := by
    obtain s | rfl := older
    · exact ⟨by simp [s], fun member => heads key member s, by simp [s]⟩
    · decide
  apply setSlots_absent
  intro slot inside same
  obtain (plain | layer | ⟨place, pushed, equal⟩) := mem_configSlots.mp inside
  · apply notPlain
    rw [← same, ← plainSlots_keys]
    exact mem_map_of_mem plain
  · exact notLayer (same ▸ layersSlots_head layer)
  · rw [equal] at same
    exact notPlace (same ▸ pushedPlaces_head pushed)

theorem nonEmpty_congr {text other : Option Str} (same : text.getD [] = other.getD []) :
    nonEmpty text = nonEmpty other := by
  have filtered : ∀ t : Option Str, nonEmpty t = if t.getD [] = [] then none else some (t.getD []) := by
    intro t
    cases t with
    | none => rfl
    | some value => cases value <;> rfl
  rw [filtered, filtered, same]

/-- The restored rows supply the secrets of a canonical connection. -/
theorem supplies_restored {percentDecode : Str → Str} {original : ConnectionConfig Rest} :
    Supplies percentDecode (restoredRows (canonicalized percentDecode original))
      (canonicalized percentDecode original) := by
  have keeps := canonicalized_keeps percentDecode original
  generalize same : canonicalized percentDecode original = config at keeps
  have plain : ∀ slot ∈ plainSlots config, (restoredRows config slot.1).getD [] = slot.2 :=
    fun slot => restored_plain
  have password := plain (_, _) mem_cons_self
  have initScript := plain (_, _) (mem_cons_of_mem _ mem_cons_self)
  have sentinel := plain (_, _)
    (mem_cons_of_mem _ (mem_cons_of_mem _ mem_cons_self))
  have connectionString := plain (_, _) (mem_cons_of_mem _
    (mem_cons_of_mem _ (mem_cons_of_mem _ mem_cons_self)))
  constructor
  · split
    · rename_i oidc
      rw [keeps.usesMongodbOidc percentDecode] at oidc
      rw [← same, canonicalized_password, if_pos oidc]
    · exact password
  · exact nonEmpty_congr connectionString
  · exact sentinel
  · exact initScript
  · intro stored place member _
    apply restored_place
    rw [mem_pushedPlaces]
    obtain mq | nacos := stored
    · rw [mq] at member
      exact .inl member
    · rw [nacos.1] at member
      exact .inr ⟨nacos.1, member⟩

/-! ## Layers -/

/-- The keys of the secrets of a layer, each with the older name that is read if it has no
row. -/
def layerNames (index : Nat) : TransportLayerConfig Rest → List (Str × Option Str)
  | .ssh layer =>
    [(transportLayerSshPasswordKey index layer.id,
        some (if layer.id = "legacy".toList then "ssh_password".toList
          else sshTunnelPasswordKey index layer.id)),
      (transportLayerSshKeyPassphraseKey index layer.id,
        some (if layer.id = "legacy".toList then "ssh_key_passphrase".toList
          else sshTunnelKeyPassphraseKey index layer.id))]
  | .proxy layer =>
    [(transportLayerProxyPasswordKey index layer.id,
      if layer.id = "legacy-proxy".toList then some "proxy_password".toList else none)]
  | .httpTunnel layer => [(transportLayerHttpTunnelTokenKey index layer.id, none)]

def layersNames (layers : List (TransportLayerConfig Rest)) : List (Str × Option Str) :=
  (layers.mapIdx layerNames).flatten

/-- The secret that a layer gets. -/
def readName (rows : Str → Option Str) (name : Str × Option Str) : Str :=
  ((rows name.1).or (name.2.bind rows)).getD []

theorem layerSlots_hydrateLayer {rows : Str → Option Str} {index : Nat}
    {layer : TransportLayerConfig Rest} :
    layerSlots index (hydrateLayer rows index layer) =
      (layerNames index layer).map fun name => (name.1, readName rows name) := by
  cases layer with
  | ssh tunnel =>
    simp only [hydrateLayer, layerSlots, layerNames, readName]
    split <;> rfl
  | proxy tunnel =>
    simp only [hydrateLayer, layerSlots, layerNames, readName]
    split <;> rfl
  | httpTunnel tunnel =>
    simp only [hydrateLayer, layerSlots, layerNames, readName, map_cons, map_nil,
      bind_none, or_none]

theorem layersSlots_hydrateLayers (rows : Str → Option Str)
    (layers : List (TransportLayerConfig Rest)) :
    layersSlots (hydrateLayers rows layers) =
      (layersNames layers).map fun name => (name.1, readName rows name) := by
  unfold layersSlots hydrateLayers layersNames
  rw [map_flatten]
  congr 1
  apply ext_getElem?
  intro index
  rw [getElem?_mapIdx, getElem?_mapIdx, getElem?_map, getElem?_mapIdx]
  cases layers[index]? with
  | none => rfl
  | some layer => exact congrArg some layerSlots_hydrateLayer

/-- An older name is one that is never pushed. -/
theorem layersNames_older (member : name ∈ layersNames layers) {older : Str}
    (has : name.2 = some older) : older.head? = some 's' ∨ older = "proxy_password".toList := by
  obtain ⟨names, inside, found⟩ := mem_flatten.mp member
  obtain ⟨index, bound, rfl⟩ := mem_mapIdx.mp inside
  cases layer : layers[index] with
  | ssh tunnel =>
    rw [layer] at found
    obtain first | second := mem_cons.mp found
    · rw [first] at has
      cases has
      left
      split <;> rfl
    · rw [mem_singleton.mp second] at has
      cases has
      left
      split <;> rfl
  | proxy tunnel =>
    rw [layer] at found
    rw [mem_singleton.mp found] at has
    split at has
    · cases has
      exact .inr rfl
    · cases has
  | httpTunnel tunnel =>
    rw [layer] at found
    rw [mem_singleton.mp found] at has
    cases has

/-- Layers of a connection that share a key read the same secret. -/
def LayersAgree (rows : Str → Option Str) (layers : List (TransportLayerConfig Rest)) : Prop :=
  ∀ name ∈ layersNames layers, ∀ other ∈ layersNames layers, name.1 = other.1 →
    rows name.1 = none → (name.2.bind rows).getD [] = (other.2.bind rows).getD []

theorem readName_of_none {rows : Str → Option Str} (missing : rows name.1 = none) :
    readName rows name = (name.2.bind rows).getD [] := by
  unfold readName
  rw [missing, none_or]

/-- Restored rows have no older names. -/
theorem readName_restored (member : name ∈ layersNames layers) :
    readName (restoredRows config) name = (restoredRows config name.1).getD [] := by
  have older : name.2.bind (restoredRows config) = none := by
    cases has : name.2 with
    | none => rfl
    | some older => exact restored_older (layersNames_older member has)
  unfold readName
  rw [older, or_none]

section LayersOf

variable {config : ConnectionConfig Rest} {rows : Str → Option Str}
  {layers : List (TransportLayerConfig Rest)}

section

variable (loaded : config.transportLayers = hydrateLayers rows layers)
include loaded

theorem configSlots_layer (member : name ∈ layersNames layers) :
    (name.1, readName rows name) ∈ configSlots config := by
  apply mem_configSlots.mpr (.inr (.inl _))
  rw [loaded, layersSlots_hydrateLayers]
  exact mem_map_of_mem member

/-- A secret under the key of a layer is one of a layer. -/
theorem configSlots_layer_key (member : name ∈ layersNames layers)
    (inside : slot ∈ configSlots config) (same : slot.1 = name.1) :
    ∃ other ∈ layersNames layers, slot = (other.1, readName rows other) := by
  have head : slot.1.head? = some 't' := by
    rw [same]
    have listed : (name.1, readName rows name) ∈ layersSlots (hydrateLayers rows layers) := by
      rw [layersSlots_hydrateLayers]
      exact mem_map_of_mem member
    exact layersSlots_head listed
  obtain (plain | layer | ⟨place, pushed, equal⟩) := mem_configSlots.mp inside
  · have plainHead := plainSlots_head plain
    rw [head] at plainHead
    exact absurd plainHead (by decide)
  · rw [loaded, layersSlots_hydrateLayers] at layer
    obtain ⟨other, listed, equal⟩ := mem_map.mp layer
    exact ⟨other, listed, equal.symm⟩
  · have placeHead := pushedPlaces_head pushed
    rw [← show slot.1 = place.key from congrArg Prod.fst equal, head] at placeHead
    exact absurd placeHead (by decide)

/-- The layers of a restored connection have their secrets exactly if those that share a key
agree. -/
theorem layers_restored : layersSlots (hydrateLayers (restoredRows config)
        (config.transportLayers.map TransportLayerConfig.scrubSecrets)) =
      layersSlots config.transportLayers ↔ LayersAgree rows layers := by
  rw [loaded, hydrateLayers_scrub, layersSlots_hydrateLayers, layersSlots_hydrateLayers,
    map_inj_left]
  constructor
  · intro same name member other member' key missing
    have first := (Prod.ext_iff.mp (same name member)).2
    have second := (Prod.ext_iff.mp (same other member')).2
    rw [readName_restored member, readName_of_none missing] at first
    rw [readName_restored member', readName_of_none (key ▸ missing), ← key] at second
    exact first.symm.trans second
  · intro agree name member
    rw [readName_restored member]
    have value := setSlots_value (configSlots_layer loaded member) (by
      intro slot inside same
      obtain ⟨other, listed, rfl⟩ := configSlots_layer_key loaded member inside same
      cases row : rows name.1 with
      | some secret =>
        unfold readName
        rw [show other.1 = name.1 from same, row]
        rfl
      | none =>
        have missing : rows other.1 = none := by rw [show other.1 = name.1 from same, row]
        rw [readName_of_none row, readName_of_none missing]
        exact agree other listed name member same missing)
    exact congrArg (Prod.mk name.1) value

end

end LayersOf

end Dbx.Guarantees.PushedSecrets
