import P2pVpn.Config

set_option autoImplicit false

/-! # Bootstrapping a node (`src/generate.rs`)

`generate` writes a template configuration if there is none and a key if the configuration names a file
that is not there. It writes to missing files only, so the disk grows (`generate_extends`), and what is
loaded from a disk is loaded from every larger one: an identity once generated stays, whatever is
generated later (`identity_stable`). -/

namespace P2pVpn

/-- The name of the private key, in the directory of the configuration. -/
def DEFAULT_KEY_FILE_NAME : String := "zeroconf-p2p-vpn_private.key"

/-- The configuration that `generate` writes. -/
def defaultConfigToml : String :=
  "# zeroconf-p2p-vpn configuration, created by `zeroconf-p2p-vpn generate`.
# Fill in the [peers] table below, then run `zeroconf-p2p-vpn <this-file>`.
# See example-config.toml for the optional [host] subnet, [tun] and [discovery] settings.

[host]
# This host's Ed25519 private key (raw 32-byte format). A relative path is
# resolved next to this config file; `generate` created the key file for you.
private_key_path = \"" ++ DEFAULT_KEY_FILE_NAME ++ "\"

[peers]
# z-base-32-encoded Ed25519 public keys of allowed peers, each keyed by a name of
# your choosing. A peer's key is the \"public key\" line printed by
# `zeroconf-p2p-vpn generate` or `zeroconf-p2p-vpn show` on that peer's machine.
# alice = \"ri5s1riaxztowkfasg645kdngnugembhsjwke5qfrktno9qjn8ty\"
"

/-- The bytes of a key file: `save_key_to_disk` and `load_key_from_disk` are inverse to each other. -/
structure KeyFormat (SecretKey : Type) where
  encode : SecretKey → ByteArray
  decode : ByteArray → Option SecretKey
  decode_eq_some_iff : ∀ bytes key, decode bytes = some key ↔ bytes = encode key

/-- The raw format of a key: its 32 bytes. -/
def rawKeys : KeyFormat {bytes : ByteArray // bytes.size = 32} where
  encode := Subtype.val
  decode := fun bytes => if h : bytes.size = 32 then some ⟨bytes, h⟩ else none
  decode_eq_some_iff := by
    intro bytes key
    split_ifs with h
    · rw [Option.some.injEq, Subtype.ext_iff]
    · refine ⟨fun hnone => absurd hnone (by simp), ?_⟩
      rintro rfl
      exact absurd key.2 h

/-- What the OS makes of the requests of one call. -/
structure OsOutcomes where
  writeConfig : WriteOutcome
  writeKey : WriteOutcome
  setPermissions : Bool

/-- Why `generate` fails. -/
inductive GenerateError where
  | load (e : LoadError)
  /-- "writing config file '…'". -/
  | writingConfig (path : String)
  /-- "reading private key '…'". -/
  | readingKey (path : String)
  /-- "writing private key '…'". -/
  | writingKey (path : String)
  /-- "restricting permissions on '…'". -/
  | restrictingPermissions (path : String)

section

variable {File SecretKey PublicKey Discovery : Type} [DecidableEq File] {resolve : String → File}
  (reader : ConfigReader PublicKey Discovery) (keys : KeyFormat SecretKey) (os : OsOutcomes)

/-- The key file of a template configuration. A bare file name has an empty parent, which the source
    does not join anything to. -/
def templateKeyPath (configPath : String) : String :=
  match (UnixPath.parent configPath).filter (· ≠ "") with
  | some dir => UnixPath.join dir DEFAULT_KEY_FILE_NAME
  | none => DEFAULT_KEY_FILE_NAME

/-- Writes a template if there is no configuration, and returns the path of the private key. -/
def ensureConfig (disk : Disk resolve) (configPath : String) :
    Disk resolve × Except GenerateError String :=
  if disk.pathExists configPath then
    match Config.load reader disk configPath with
    | .error e => (disk, .error (.load e))
    | .ok config => (disk, .ok config.privateKeyPath)
  else
    match disk.write os.writeConfig configPath defaultConfigToml.toUTF8 with
    | (disk', false) => (disk', .error (.writingConfig configPath))
    | (disk', true) => (disk', .ok (templateKeyPath configPath))

/-- The key in the file, if there is one. -/
def loadKeyFromDisk (disk : Disk resolve) (path : String) : Option SecretKey :=
  (disk.read path).bind keys.decode

/-- Writes the key to the file, and says whether all went well. -/
def saveKeyToDisk (disk : Disk resolve) (path : String) (key : SecretKey) : Disk resolve × Bool :=
  disk.write os.writeKey path (keys.encode key)

/-- Loads the key, or writes a new one, readable by its owner only; `fresh` is what
    `SecretKey::generate` returns. -/
def ensureKey (fresh : SecretKey) (disk : Disk resolve) (keyPath : String) :
    Disk resolve × Except GenerateError SecretKey :=
  if disk.pathExists keyPath then
    match loadKeyFromDisk keys disk keyPath with
    | none => (disk, .error (.readingKey keyPath))
    | some key => (disk, .ok key)
  else
    match saveKeyToDisk keys os disk keyPath fresh with
    | (disk', false) => (disk', .error (.writingKey keyPath))
    | (disk', true) =>
        match disk'.setMode os.setPermissions keyPath 0o600 with
        | (disk'', false) => (disk'', .error (.restrictingPermissions keyPath))
        | (disk'', true) => (disk'', .ok fresh)

/-- Makes sure that there is a configuration and a key, and returns the key. -/
def generate (fresh : SecretKey) (disk : Disk resolve) (configPath : String) :
    Disk resolve × Except GenerateError SecretKey :=
  match ensureConfig reader os disk configPath with
  | (disk', .error e) => (disk', .error e)
  | (disk', .ok keyPath) => ensureKey keys os fresh disk' keyPath

/-! ## The template -/

theorem toList_append_append {a b c : String} {as bs cs : List Char} (ha : a = String.ofList as)
    (hb : b = String.ofList bs) (hc : c = String.ofList cs) :
    (a ++ b ++ c).toList = as ++ bs ++ cs := by
  subst ha hb hc
  simp [String.toList_append]

set_option maxRecDepth 8000 in
/-- The template has two tables, and one pair. -/
theorem read_defaultConfigToml :
    (Toml.read defaultConfigToml).map (fun tables => tables.map fun t => (t.name, t.pairs))
      = some [("peers", []), ("host", [("private_key_path", DEFAULT_KEY_FILE_NAME)])] := by
  unfold Toml.read
  -- down to characters by a lemma: decoding the literals in the kernel is slow
  rw [show defaultConfigToml.toList = _ from toList_append_append rfl rfl rfl]
  decide +kernel

/-- The template is a configuration of its key file. -/
theorem parse_defaultConfigToml {reader : ConfigReader PublicKey Discovery} {discovery : Discovery}
    (htoml : reader.FollowsToml discovery) :
    ∃ config, Config.parse reader defaultConfigToml = .ok config ∧
      config.privateKeyPath = DEFAULT_KEY_FILE_NAME := by
  obtain ⟨tables, hread, htables⟩ := Option.map_eq_some_iff.1 read_defaultConfigToml
  obtain ⟨raw, hraw, hhost, hpeers⟩ : ∃ raw, RawConfig.ofTables discovery tables = some raw ∧
      raw.host = { subnet := 0, privateKeyPath := DEFAULT_KEY_FILE_NAME } ∧ raw.peers = [] := by
    obtain ⟨⟨peersName, peersPairs, hpeers⟩, rest, rfl, h₁, hrest⟩ := List.map_eq_cons_iff.1 htables
    obtain ⟨⟨hostName, hostPairs, hhost⟩, rest, rfl, h₂, hnil⟩ := List.map_eq_cons_iff.1 hrest
    obtain rfl := List.map_eq_nil_iff.1 hnil
    obtain ⟨rfl, rfl⟩ := Prod.mk.inj h₁
    obtain ⟨rfl, rfl⟩ := Prod.mk.inj h₂
    exact ⟨_, rfl, rfl, rfl⟩
  obtain ⟨raw', hstr, hhost', hperm, -⟩ := htoml _ _ _ hread hraw
  rw [hhost] at hhost'
  rw [hpeers] at hperm
  obtain ⟨config, hconfig, hpath⟩ := Config.tryFrom_of_no_peers reader.fromZ32
    (by rw [hhost']; decide) hperm.eq_nil
  refine ⟨config, ?_, by rw [hpath, hhost']⟩
  simp only [Config.parse, hstr, hconfig]

omit [DecidableEq File] in
/-- The template written to a file is loaded with the key path that `ensure_config` returns. -/
theorem load_template {disk : Disk resolve} {reader : ConfigReader PublicKey Discovery}
    {discovery : Discovery} (htoml : reader.FollowsToml discovery) {path : String} {mode : Nat}
    (hnode : disk.node path = some (.file defaultConfigToml.toUTF8 mode)) :
    ∃ config, Config.load reader disk path = .ok config ∧
      config.privateKeyPath = templateKeyPath path := by
  obtain ⟨config, hparse, hkey⟩ := parse_defaultConfigToml htoml
  simp only [Config.load, Disk.readToString_of_node hnode, hparse]
  unfold templateKeyPath
  cases hparent : UnixPath.parent path with
  | none => exact ⟨config, rfl, hkey⟩
  | some dir =>
      refine ⟨_, rfl, ?_⟩
      simp only [hkey]
      by_cases hdir : dir = ""
      · -- a bare file name: the two ways of joining agree
        subst hdir
        rw [UnixPath.join_empty]
        rfl
      · simp [Option.filter, hdir]

/-! ## What one call does -/

theorem ensureConfig_extends (disk : Disk resolve) (configPath : String) :
    disk.Extends (ensureConfig reader os disk configPath).1 fun f => f = resolve configPath := by
  unfold ensureConfig
  split_ifs with hexists
  · split
    · exact .refl disk _
    · exact .refl disk _
  · have hbut := disk.sameBut_write os.writeConfig configPath defaultConfigToml.toUTF8
    have hext := Disk.Extends.of_sameBut hbut (by simpa using hexists)
    split
    · next hwrite => rwa [hwrite] at hext
    · next hwrite => rwa [hwrite] at hext

variable {reader os}

/-- On success the configuration is there and names the path that is returned. -/
theorem ensureConfig_ok {discovery : Discovery} (htoml : reader.FollowsToml discovery)
    {disk disk' : Disk resolve} {configPath keyPath : String}
    (h : ensureConfig reader os disk configPath = (disk', .ok keyPath)) :
    ∃ config, Config.load reader disk' configPath = .ok config ∧
      config.privateKeyPath = keyPath := by
  unfold ensureConfig at h
  split_ifs at h with hexists
  · split at h
    · exact absurd (congrArg Prod.snd h) (by simp)
    · next config hload =>
        obtain ⟨rfl, hkey⟩ := Prod.mk.inj h
        exact ⟨config, hload, Except.ok.inj hkey⟩
  · split at h
    · exact absurd (congrArg Prod.snd h) (by simp)
    · next hwrite =>
        obtain ⟨rfl, hkey⟩ := Prod.mk.inj h
        obtain ⟨mode, hnode⟩ := Disk.node_write hwrite
        obtain ⟨config, hload, hpath⟩ := load_template htoml hnode
        exact ⟨config, hload, hpath.trans (Except.ok.inj hkey)⟩

theorem ensureConfig_of_load {disk : Disk resolve} {configPath : String}
    {config : Config PublicKey Discovery} (h : Config.load reader disk configPath = .ok config) :
    ensureConfig reader os disk configPath = (disk, .ok config.privateKeyPath) := by
  obtain ⟨contents, hread⟩ := Config.readToString_of_load h
  obtain ⟨bytes, hbytes, -⟩ := Option.bind_eq_some_iff.1 hread
  have hexists : disk.pathExists configPath = true := Disk.pathExists_of_read hbytes
  simp only [ensureConfig, hexists, h, if_true]

theorem ensureKey_extends (keys : KeyFormat SecretKey) (os : OsOutcomes) (fresh : SecretKey)
    (disk : Disk resolve) (keyPath : String) :
    disk.Extends (ensureKey keys os fresh disk keyPath).1 fun f => f = resolve keyPath := by
  unfold ensureKey saveKeyToDisk
  split_ifs with hexists
  · split
    · exact .refl disk _
    · exact .refl disk _
  · have hbut := disk.sameBut_write os.writeKey keyPath (keys.encode fresh)
    refine Disk.Extends.of_sameBut ?_ (by simpa using hexists)
    split
    · next hwrite => rwa [hwrite] at hbut
    · next disk₁ hwrite =>
        rw [hwrite] at hbut
        have hmode := disk₁.sameBut_setMode os.setPermissions keyPath 0o600
        split
        · next hset =>
            rw [hset] at hmode
            exact hbut.trans hmode
        · next hset =>
            rw [hset] at hmode
            exact hbut.trans hmode

variable {keys}

/-- On success the key file holds the key, and nobody but its owner may read it if it is new. -/
theorem ensureKey_ok {fresh key : SecretKey} {disk disk' : Disk resolve} {keyPath : String}
    (h : ensureKey keys os fresh disk keyPath = (disk', .ok key)) :
    disk'.read keyPath = some (keys.encode key) ∧
      (disk.pathExists keyPath = false →
        disk'.node keyPath = some (.file (keys.encode key) 0o600)) := by
  unfold ensureKey saveKeyToDisk at h
  split_ifs at h with hexists
  · refine ⟨?_, fun hnew => absurd hexists (by simp [hnew])⟩
    split at h
    · exact absurd (congrArg Prod.snd h) (by simp)
    · next loaded hload =>
        obtain ⟨rfl, hkey⟩ := Prod.mk.inj h
        obtain rfl := Except.ok.inj hkey
        obtain ⟨bytes, hread, hdecode⟩ := Option.bind_eq_some_iff.1 hload
        rw [hread, (keys.decode_eq_some_iff bytes loaded).1 hdecode]
  · split at h
    · exact absurd (congrArg Prod.snd h) (by simp)
    · next hwrite =>
        obtain ⟨mode, hnode⟩ := Disk.node_write hwrite
        split at h
        · exact absurd (congrArg Prod.snd h) (by simp)
        · next hset =>
            obtain ⟨rfl, hkey⟩ := Prod.mk.inj h
            obtain rfl := Except.ok.inj hkey
            have hfile := Disk.node_setMode hnode hset
            exact ⟨Disk.read_of_node hfile, fun _ => hfile⟩

theorem ensureKey_of_read {fresh key : SecretKey} {disk : Disk resolve} {keyPath : String}
    (h : disk.read keyPath = some (keys.encode key)) :
    ensureKey keys os fresh disk keyPath = (disk, .ok key) := by
  have hdecode : keys.decode (keys.encode key) = some key :=
    (keys.decode_eq_some_iff _ key).2 rfl
  simp only [ensureKey, loadKeyFromDisk, Disk.pathExists_of_read h, h, Option.bind_some, hdecode,
    if_true]

/-! ## Identities -/

/-- The configuration can be loaded, and the file it names holds the key. -/
def HasIdentity (reader : ConfigReader PublicKey Discovery) (keys : KeyFormat SecretKey)
    (disk : Disk resolve) (configPath : String) (key : SecretKey) : Prop :=
  ∃ config, Config.load reader disk configPath = .ok config ∧
    disk.read config.privateKeyPath = some (keys.encode key)

omit [DecidableEq File] in
theorem HasIdentity.of_extends {disk disk' : Disk resolve} {configPath : String} {key : SecretKey}
    {created : File → Prop} (h : HasIdentity reader keys disk configPath key)
    (hext : disk.Extends disk' created) : HasIdentity reader keys disk' configPath key := by
  obtain ⟨config, hload, hread⟩ := h
  exact ⟨config, Config.load_of_extends hext hload, hext.read hread⟩

/-- Where there is an identity, `generate` returns it and leaves the disk as it is. -/
theorem HasIdentity.generate_eq {disk : Disk resolve} {configPath : String} {key : SecretKey}
    (h : HasIdentity reader keys disk configPath key) (os : OsOutcomes) (fresh : SecretKey) :
    generate reader keys os fresh disk configPath = (disk, .ok key) := by
  obtain ⟨config, hload, hread⟩ := h
  simp only [generate, ensureConfig_of_load hload]
  exact ensureKey_of_read hread

/-- Whether it succeeds or not, `generate` changes no file that is there. -/
theorem generate_extends (reader : ConfigReader PublicKey Discovery) (keys : KeyFormat SecretKey)
    (os : OsOutcomes) (fresh : SecretKey) (disk : Disk resolve) (configPath : String) :
    disk.Extends (generate reader keys os fresh disk configPath).1 fun f =>
      f = resolve configPath ∨
        ∃ keyPath, (ensureConfig reader os disk configPath).2 = .ok keyPath ∧ f = resolve keyPath := by
  have hconfig := ensureConfig_extends reader os disk configPath
  unfold generate
  split
  · next hensure =>
      rw [hensure] at hconfig
      exact hconfig.mono fun f hf => Or.inl hf
  · next disk₁ keyPath hensure =>
      rw [hensure] at hconfig ⊢
      refine (hconfig.mono fun f hf => Or.inl hf).trans ?_
      exact (ensureKey_extends keys os fresh disk₁ keyPath).mono fun f hf => Or.inr ⟨keyPath, rfl, hf⟩

/-- After a success the node has the identity that was returned. -/
theorem hasIdentity_of_generate {discovery : Discovery} (htoml : reader.FollowsToml discovery)
    {fresh key : SecretKey} {disk disk' : Disk resolve} {configPath : String}
    (h : generate reader keys os fresh disk configPath = (disk', .ok key)) :
    ∃ config, Config.load reader disk' configPath = .ok config ∧
      disk'.read config.privateKeyPath = some (keys.encode key) ∧
      (ensureConfig reader os disk configPath).2 = .ok config.privateKeyPath := by
  unfold generate at h
  split at h
  · exact absurd (congrArg Prod.snd h) (by simp)
  · next disk₁ keyPath hensure =>
      obtain ⟨config, hload, rfl⟩ := ensureConfig_ok htoml hensure
      have hext := ensureKey_extends keys os fresh disk₁ config.privateKeyPath
      rw [h] at hext
      exact ⟨config, Config.load_of_extends hext hload, (ensureKey_ok h).1, by rw [hensure]⟩

/-- **Bootstrapping is idempotent and never overwrites.** Let `generate` return a key, on any disk, for
    any configuration path, and whichever files the paths lead to. Then every file that was there is
    unchanged; the configuration can be loaded, the file it names holds the key, and no other file than
    these two is new; and a second call returns the same key and changes nothing, whatever the OS would
    do to its writes. -/
theorem generate_idempotent {discovery : Discovery} (htoml : reader.FollowsToml discovery)
    (os : OsOutcomes) (fresh key : SecretKey) (disk disk' : Disk resolve) (configPath : String)
    (h : generate reader keys os fresh disk configPath = (disk', .ok key)) :
    (∀ f node, disk.nodes f = some node → disk'.nodes f = some node) ∧
    (∃ config, Config.load reader disk' configPath = .ok config ∧
      disk'.read config.privateKeyPath = some (keys.encode key) ∧
      ∀ f, disk.nodes f = none → disk'.nodes f ≠ none →
        f = resolve configPath ∨ f = resolve config.privateKeyPath) ∧
    ∀ os' fresh', generate reader keys os' fresh' disk' configPath = (disk', .ok key) := by
  have hext := generate_extends reader keys os fresh disk configPath
  rw [h] at hext
  obtain ⟨config, hload, hread, hensure⟩ := hasIdentity_of_generate htoml h
  refine ⟨fun f node hnode => hext.keeps hnode, ⟨config, hload, hread, ?_⟩, ?_⟩
  · intro f hnone hnew
    rcases hext.created hnone hnew with hf | ⟨keyPath, hkey, hf⟩
    · exact Or.inl hf
    · obtain rfl := Except.ok.inj (hensure.symm.trans hkey)
      exact Or.inr hf
  · exact HasIdentity.generate_eq ⟨config, hload, hread⟩

/-- A key of one byte, repeated. -/
def repeatedKey (b : UInt8) : {bytes : ByteArray // bytes.size = 32} :=
  ⟨⟨Array.replicate 32 b⟩, by simp [ByteArray.size]⟩

/-- On an empty disk the first call creates both files; a second one with another key at hand and an OS
    that refuses every write returns the first key. -/
theorem generate_idempotent_empty :
    ∃ disk' : Disk (id : String → String),
      generate plainReader rawKeys ⟨.written 0o644, .written 0o644, true⟩ (repeatedKey 1)
        ⟨fun _ => none⟩ "etc/vpn.toml" = (disk', .ok (repeatedKey 1)) ∧
      generate plainReader rawKeys ⟨.failed none, .failed none, false⟩ (repeatedKey 2) disk'
        "etc/vpn.toml" = (disk', .ok (repeatedKey 1)) := by
  refine ⟨_, rfl, ?_⟩
  exact (generate_idempotent plainReader_followsToml ⟨.written 0o644, .written 0o644, true⟩
    (repeatedKey 1) _ ⟨fun _ => none⟩ _ _ rfl).2.2 _ _

/-- A key file that is new, and is not the configuration itself, is readable by its owner only. -/
theorem generate_key_owner_only {discovery : Discovery} (htoml : reader.FollowsToml discovery)
    {fresh key : SecretKey} {disk disk' : Disk resolve} {configPath : String}
    {config : Config PublicKey Discovery}
    (h : generate reader keys os fresh disk configPath = (disk', .ok key))
    (hload : Config.load reader disk' configPath = .ok config)
    (hnew : disk.pathExists config.privateKeyPath = false)
    (hother : resolve config.privateKeyPath ≠ resolve configPath) :
    disk'.node config.privateKeyPath = some (.file (keys.encode key) 0o600) := by
  obtain ⟨config', hload', -, hensure⟩ := hasIdentity_of_generate htoml h
  obtain rfl := Except.ok.inj (hload'.symm.trans hload)
  have hext := ensureConfig_extends reader os disk configPath
  unfold generate at h
  split at h
  · exact absurd (congrArg Prod.snd h) (by simp)
  · next disk₁ keyPath hconfig =>
      rw [hconfig] at hext hensure
      obtain rfl := Except.ok.inj hensure
      refine (ensureKey_ok h).2 ?_
      -- writing the configuration has not created the key file
      rcases hext (resolve config'.privateKeyPath) with hsame | ⟨-, heq⟩
      · have hnode : disk₁.node config'.privateKeyPath = disk.node config'.privateKeyPath := hsame
        rwa [Disk.pathExists, hnode]
      · exact absurd heq hother

/-! ## Later calls -/

/-- A call of `generate`, with what the OS will do and the key it would make. -/
structure GenerateCall (SecretKey : Type) where
  configPath : String
  os : OsOutcomes
  fresh : SecretKey

/-- The disk after a number of calls, failed ones included. -/
def generateAll (reader : ConfigReader PublicKey Discovery) (keys : KeyFormat SecretKey)
    (disk : Disk resolve) (calls : List (GenerateCall SecretKey)) : Disk resolve :=
  calls.foldl (fun disk call => (generate reader keys call.os call.fresh disk call.configPath).1) disk

/-- A call for any configuration keeps the identities of all. -/
theorem HasIdentity.generate {disk : Disk resolve} {configPath : String} {key : SecretKey}
    (h : HasIdentity reader keys disk configPath key) (call : GenerateCall SecretKey) :
    HasIdentity reader keys (generate reader keys call.os call.fresh disk call.configPath).1
      configPath key :=
  h.of_extends (generate_extends reader keys call.os call.fresh disk call.configPath)

theorem HasIdentity.generateAll {disk : Disk resolve} {configPath : String} {key : SecretKey}
    (h : HasIdentity reader keys disk configPath key) (calls : List (GenerateCall SecretKey)) :
    HasIdentity reader keys (generateAll reader keys disk calls) configPath key := by
  induction calls generalizing disk with
  | nil => exact h
  | cons call rest ih => exact ih (h.generate call)

/-- **An identity is for good.** After a success, and any calls for any configurations after it,
    `generate` still returns the key of that success and leaves the disk as it is. -/
theorem identity_stable {discovery : Discovery} (htoml : reader.FollowsToml discovery)
    {fresh key : SecretKey} {disk disk' : Disk resolve} {configPath : String}
    (h : generate reader keys os fresh disk configPath = (disk', .ok key))
    (calls : List (GenerateCall SecretKey)) (os' : OsOutcomes) (fresh' : SecretKey) :
    generate reader keys os' fresh' (generateAll reader keys disk' calls) configPath
      = (generateAll reader keys disk' calls, .ok key) := by
  obtain ⟨config, hload, hread, -⟩ := hasIdentity_of_generate htoml h
  have hid : HasIdentity reader keys disk' configPath key := ⟨config, hload, hread⟩
  exact (hid.generateAll calls).generate_eq os' fresh'

end

end P2pVpn
