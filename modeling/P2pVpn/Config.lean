import P2pVpn.Addr.Basic
import P2pVpn.Lib.Files
import P2pVpn.Lib.Toml

set_option autoImplicit false

/-! # Configuration (`src/config.rs`)

The check that turns a deserialized TOML document into a configuration, and loading one from a file.
Deserialization itself is `toml`'s and `serde`'s, a parameter (`ConfigReader`) of which results assume
what it makes of documents with nothing but plain strings (`ConfigReader.FollowsToml`); the discovery
settings are passed through untouched, so their type is a parameter too. -/

namespace P2pVpn

/-- The `[dns]` table as it is read. -/
structure RawDns where
  suffix : String

/-- The `[host]` table as it is read. -/
structure RawHost where
  subnet : BitVec 16
  privateKeyPath : String

/-- The `[tun]` table as it is read. -/
structure RawTun where
  name : Option String
  description : Option String

/-- The document as deserialized. `peers` lists the entries of the table in the order its hash map
    iterates them, so no name occurs twice. -/
structure RawConfig (Discovery : Type) where
  host : RawHost
  peers : List (String × String)
  peers_nodup : (peers.map Prod.fst).Nodup
  tun : RawTun
  discovery : Discovery
  dns : Option RawDns

/-- The checked `[dns]` settings. -/
structure DnsConfig where
  suffix : String

/-- The checked `[tun]` settings. -/
structure TunConfig where
  name : Option String
  description : String

/-- A checked configuration; no two peers have one name. -/
structure Config (PublicKey Discovery : Type) where
  subnet : BitVec 16
  privateKeyPath : String
  peers : List (String × PublicKey)
  peers_nodup : (peers.map Prod.fst).Nodup
  tun : TunConfig
  discovery : Discovery
  dns : Option DnsConfig

/-- The description of the interface, if the configuration gives none. -/
def DEFAULT_TUN_DESCRIPTION : String := "zeroconf-p2p-vpn VPN interface"

/-- What a configuration that can be read is refused for. -/
inductive ConfigError where
  /-- "host.subnet 0x… is out of range: only 0x0000..=0x… is allowed", with the two numbers. -/
  | subnetOutOfRange (subnet maxSubnet : BitVec 16)
  /-- "peer '…': decoding public key '…'". -/
  | peerKey (name key : String)
  deriving DecidableEq

section

variable {PublicKey Discovery : Type}

/-- Decodes the peers' keys, stopping at the first that fails. -/
def decodePeers (fromZ32 : String → Option PublicKey) :
    List (String × String) → Except ConfigError (List (String × PublicKey))
  | [] => .ok []
  | (name, key) :: rest =>
      match fromZ32 key with
      | none => .error (.peerKey name key)
      | some k =>
          match decodePeers fromZ32 rest with
          | .error e => .error e
          | .ok decoded => .ok ((name, k) :: decoded)

theorem decodePeers_names (fromZ32 : String → Option PublicKey) (peers : List (String × String))
    (decoded : List (String × PublicKey)) (h : decodePeers fromZ32 peers = .ok decoded) :
    decoded.map Prod.fst = peers.map Prod.fst := by
  induction peers generalizing decoded with
  | nil =>
      simp only [decodePeers, Except.ok.injEq] at h
      subst h
      rfl
  | cons entry rest ih =>
      obtain ⟨name, key⟩ := entry
      simp only [decodePeers] at h
      split at h
      · exact absurd h (by simp)
      · split at h
        · exact absurd h (by simp)
        · next decoded' hrest =>
            obtain rfl := Except.ok.inj h
            simp [ih decoded' hrest]

/-- `TryFrom<RawConfig> for Config`. -/
def Config.tryFrom (fromZ32 : String → Option PublicKey) (raw : RawConfig Discovery) :
    Except ConfigError (Config PublicKey Discovery) :=
  if raw.host.subnet > MAX_SUBNET then .error (.subnetOutOfRange raw.host.subnet MAX_SUBNET)
  else
    match h : decodePeers fromZ32 raw.peers with
    | .error e => .error e
    | .ok peers =>
        .ok
          { subnet := raw.host.subnet
            privateKeyPath := raw.host.privateKeyPath
            peers
            peers_nodup := by rw [decodePeers_names fromZ32 raw.peers peers h]; exact raw.peers_nodup
            tun :=
              { name := raw.tun.name
                description := raw.tun.description.getD DEFAULT_TUN_DESCRIPTION }
            discovery := raw.discovery
            dns := raw.dns.map fun rawDns => { suffix := rawDns.suffix } }

/-- Decoding the peers never blames the subnet. -/
theorem decodePeers_ne_subnetOutOfRange (fromZ32 : String → Option PublicKey)
    (peers : List (String × String)) (s m : BitVec 16) :
    decodePeers fromZ32 peers ≠ .error (.subnetOutOfRange s m) := by
  induction peers with
  | nil => simp [decodePeers]
  | cons entry rest ih =>
      obtain ⟨name, key⟩ := entry
      simp only [decodePeers]
      cases fromZ32 key with
      | none => simp
      | some k =>
          cases hrest : decodePeers fromZ32 rest with
          | error e =>
              rw [hrest] at ih
              simpa using ih
          | ok decoded => simp

/-- The subnet of an accepted configuration is the configured one, and legal. -/
theorem Config.tryFrom_ok {fromZ32 : String → Option PublicKey} {raw : RawConfig Discovery}
    {config : Config PublicKey Discovery} (h : Config.tryFrom fromZ32 raw = .ok config) :
    config.subnet = raw.host.subnet ∧ raw.host.subnet ≤ MAX_SUBNET := by
  unfold Config.tryFrom at h
  split_ifs at h with hs
  split at h
  · exact absurd h (by simp)
  · obtain rfl := Except.ok.inj h
    exact ⟨rfl, by simpa using hs⟩

/-- The subnet is what a configuration is rejected for exactly when it exceeds the maximum. -/
theorem Config.tryFrom_subnetOutOfRange_iff (fromZ32 : String → Option PublicKey)
    (raw : RawConfig Discovery) :
    Config.tryFrom fromZ32 raw = .error (.subnetOutOfRange raw.host.subnet MAX_SUBNET) ↔
      MAX_SUBNET < raw.host.subnet := by
  unfold Config.tryFrom
  split_ifs with hs
  · exact ⟨fun _ => hs, fun _ => rfl⟩
  · refine ⟨?_, fun h => absurd h hs⟩
    intro h
    split at h
    · next e he =>
        simp only [Except.error.injEq] at h
        rw [h] at he
        exact absurd he (decodePeers_ne_subnetOutOfRange fromZ32 raw.peers _ _)
    · exact absurd h (by simp)

/-- A configuration with a legal subnet and no peers is accepted. -/
theorem Config.tryFrom_of_no_peers (fromZ32 : String → Option PublicKey) {raw : RawConfig Discovery}
    (hsubnet : raw.host.subnet ≤ MAX_SUBNET) (hpeers : raw.peers = []) :
    ∃ config, Config.tryFrom fromZ32 raw = .ok config ∧
      config.privateKeyPath = raw.host.privateKeyPath := by
  unfold Config.tryFrom
  rw [if_neg (by simpa using hsubnet)]
  split
  · next e he => exact absurd he (by simp [hpeers, decodePeers])
  · exact ⟨_, rfl, rfl⟩

/-! ## Reading the text -/

/-- `toml::from_str` and `PublicKey::from_z32`. -/
structure ConfigReader (PublicKey Discovery : Type) where
  fromStr : String → Option (RawConfig Discovery)
  fromZ32 : String → Option PublicKey

/-- Why a text is no configuration. -/
inductive ParseError where
  /-- "parsing configuration". -/
  | toml
  | config (e : ConfigError)

/-- Reads and checks a configuration. -/
def Config.parse (reader : ConfigReader PublicKey Discovery) (toml : String) :
    Except ParseError (Config PublicKey Discovery) :=
  match reader.fromStr toml with
  | none => .error .toml
  | some raw =>
      match Config.tryFrom reader.fromZ32 raw with
      | .error e => .error (.config e)
      | .ok config => .ok config

/-- Why a file is no configuration. -/
inductive LoadError where
  /-- "reading configuration file '…'". -/
  | reading (path : String)
  /-- "in configuration file '…'". -/
  | inFile (path : String) (e : ParseError)

/-- Reads and parses a configuration file; a relative `private_key_path` is resolved in its
    directory. -/
def Config.load {File : Type} {resolve : String → File} (reader : ConfigReader PublicKey Discovery)
    (disk : Disk resolve) (path : String) : Except LoadError (Config PublicKey Discovery) :=
  match disk.readToString path with
  | none => .error (.reading path)
  | some contents =>
      match Config.parse reader contents with
      | .error e => .error (.inFile path e)
      | .ok config =>
          match UnixPath.parent path with
          | some configDir =>
              .ok { config with privateKeyPath := UnixPath.join configDir config.privateKeyPath }
          | none => .ok config

/-! ## Documents of plain strings -/

/-- The keys under which `RawConfig` has strings; `[peers]` has any. -/
def isStringField (table key : String) : Bool :=
  table == "peers" || (table, key) ∈ [("host", "private_key_path"), ("tun", "name"),
    ("tun", "description"), ("dns", "suffix")]

/-- The table and its string fields are ones the program knows. -/
def isKnownTable (t : Toml.Table) : Bool :=
  t.name ∈ ["host", "peers", "tun", "dns"] && t.pairs.all fun pair => isStringField t.name pair.1

/-- What the deserializer is to make of such a document: defaults for what is missing, but the key path
    and the suffix of a `[dns]` section are required. -/
def RawConfig.ofTables (discovery : Discovery) (tables : List Toml.Table) :
    Option (RawConfig Discovery) :=
  let value (table key : String) : Option String := (Toml.pairs tables table).bind (List.lookup key)
  let peers := (tables.find? fun t => t.name == "peers").getD ⟨"peers", [], List.nodup_nil⟩
  if tables.all isKnownTable then
    match value "host" "private_key_path", Toml.pairs tables "dns", value "dns" "suffix" with
    | none, _, _ => none
    | some _, some _, none => none
    | some privateKeyPath, _, suffix =>
        some
          { host := { subnet := 0, privateKeyPath }
            peers := peers.pairs
            peers_nodup := peers.keys_nodup
            tun := { name := value "tun" "name", description := value "tun" "description" }
            discovery
            dns := suffix.map fun suffix => { suffix } }
  else none

/-- The deserializer follows TOML on documents of plain strings; the peers come in the order of a hash
    map. -/
def ConfigReader.FollowsToml (reader : ConfigReader PublicKey Discovery) (discovery : Discovery) :
    Prop :=
  ∀ text tables raw, Toml.read text = some tables → RawConfig.ofTables discovery tables = some raw →
    ∃ raw', reader.fromStr text = some raw' ∧ raw'.host = raw.host ∧ raw'.peers.Perm raw.peers ∧
      raw'.tun = raw.tun ∧ raw'.discovery = raw.discovery ∧ raw'.dns = raw.dns

/-- A reader of nothing but such documents. -/
def plainReader : ConfigReader String Unit where
  fromStr := fun text => (Toml.read text).bind (RawConfig.ofTables ())
  fromZ32 := some

theorem plainReader_followsToml : plainReader.FollowsToml () := by
  intro text tables raw hread hraw
  exact ⟨raw, Option.bind_eq_some_iff.2 ⟨tables, hread, hraw⟩, rfl, List.Perm.refl _, rfl, rfl, rfl⟩

section

variable {File : Type} {resolve : String → File} {reader : ConfigReader PublicKey Discovery}
  {disk disk' : Disk resolve} {path : String} {config : Config PublicKey Discovery}

theorem Config.readToString_of_load (h : Config.load reader disk path = .ok config) :
    ∃ contents, disk.readToString path = some contents := by
  unfold Config.load at h
  cases hread : disk.readToString path with
  | none => exact absurd h (by simp [hread])
  | some contents => exact ⟨contents, rfl⟩

/-- A file that can be loaded can be loaded from every larger disk, with the same result. -/
theorem Config.load_of_extends {created : File → Prop} (hext : disk.Extends disk' created)
    (h : Config.load reader disk path = .ok config) : Config.load reader disk' path = .ok config := by
  obtain ⟨contents, hread⟩ := Config.readToString_of_load h
  unfold Config.load at h ⊢
  rw [hread] at h
  rw [hext.readToString hread]
  exact h

end

end

end P2pVpn
