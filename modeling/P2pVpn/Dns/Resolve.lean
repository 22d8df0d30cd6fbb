import P2pVpn.Config
import P2pVpn.Session.Basic

set_option autoImplicit false

/-! # Resolving peer names (`src/dns.rs`)

The registry the sessions write their addresses to, served under a suffix. Names are folded to lower
case when they are stored, and queries arrive in lower case; a query is cut where the suffix starts, by
its length in bytes, and stripped of the dots in front of it. -/

namespace P2pVpn

/-- `PeerNames`, with the suffix it is served under. -/
structure PeerResolver where
  suffix : String
  names : PeerNames

/-- What the resolver makes of a question. -/
inductive Reply where
  | notMine
  | nxDomain
  | answer (addrs : List IpAddr)
  deriving DecidableEq

/-- `dns_stack::dns::matches_suffix`: the suffix itself, or a name below it. -/
def matchesSuffix (name suffix : String) : Bool :=
  name == suffix || ('.' :: suffix.toList).isSuffixOf name.toList

/-- `&name[..len]`; `none` is a panic, when the length is behind the end or inside a character. -/
def sliceChars : List Char → Nat → Option (List Char)
  | [], n => if n = 0 then some [] else none
  | c :: rest, n =>
      if n = 0 then some []
      else if c.utf8Size ≤ n then (sliceChars rest (n - c.utf8Size)).map (c :: ·)
      else none

/-- The characters without those at the end that equal `c`. -/
def trimEndMatches (c : Char) (chars : List Char) : List Char := chars.rdropWhile (· == c)

/-- The answer to a query; `none` is a panic. -/
def PeerResolver.resolve (r : PeerResolver) (name : String) : Option Reply :=
  if matchesSuffix name r.suffix = false then some .notMine
  else if name.utf8ByteSize < r.suffix.utf8ByteSize then none
  else
    match sliceChars name.toList (name.utf8ByteSize - r.suffix.utf8ByteSize) with
    | none => none
    | some front =>
        let label := trimEndMatches '.' front
        if label = [] then some .nxDomain
        else
          match r.names.addresses (String.ofList label) with
          | some addrs => some (.answer addrs)
          | none => some .nxDomain

/-- A call on the registry on behalf of a peer. -/
inductive NameOp where
  | set (name : String) (addrs : List IpAddr)
  | remove (name : String)

/-- The name that is set or removed. -/
def NameOp.name : NameOp → String
  | .set name _ | .remove name => name

/-- One operation on the names. -/
def NameOp.apply (names : PeerNames) : NameOp → PeerNames
  | .set name addrs => names.set name addrs
  | .remove name => names.remove name

/-- The names after a list of operations. -/
def PeerNames.run (ops : List NameOp) : PeerNames := ops.foldl NameOp.apply .new

/-! ## Names -/

/-- The labels of a name are not empty. -/
def ValidName (name : String) : Prop := ∀ label ∈ name.toList.splitOn '.', label ≠ []

instance (name : String) : Decidable (ValidName name) :=
  inferInstanceAs (Decidable (∀ label ∈ name.toList.splitOn '.', label ≠ []))

/-- The name of a peer below the suffix. -/
def underSuffix (label suffix : String) : String := label ++ "." ++ suffix

theorem toList_underSuffix (label suffix : String) :
    (underSuffix label suffix).toList = label.toList ++ '.' :: suffix.toList := by
  simp [underSuffix, String.toList_append]

theorem ValidName.of_underSuffix {label suffix : String} (h : ValidName (underSuffix label suffix)) :
    ValidName label := by
  intro l hl
  refine h l ?_
  rw [toList_underSuffix, List.splitOn, List.splitOnP_append_cons _ _ (by simp)]
  exact List.mem_append_left _ hl

theorem ValidName.ne_nil {name : String} (h : ValidName name) : name.toList ≠ [] := by
  intro hnil
  exact h [] (by simp [hnil, List.splitOn]) rfl

/-- A name with labels does not end with a dot. -/
theorem ValidName.trimEndMatches_eq {name : String} (h : ValidName name) :
    trimEndMatches '.' name.toList = name.toList := by
  refine List.rdropWhile_eq_self_iff.2 ?_
  intro hne hdot
  have hlast : name.toList = name.toList.dropLast ++ '.' :: [] := by
    have := List.dropLast_append_getLast hne
    rw [beq_iff_eq.1 hdot] at this
    exact this.symm
  refine h [] ?_ rfl
  rw [hlast, List.splitOn, List.splitOnP_append_cons _ _ (by simp)]
  simp

theorem toLower_eq_dot_iff (c : Char) : c.toLower = '.' ↔ c = '.' := by
  unfold Char.toLower
  split_ifs with hupper
  · have hlow : 65 ≤ c.toNat := hupper.1
    have hhigh : c.toNat ≤ 90 := hupper.2
    constructor
    · intro h
      have hval := congrArg (fun d => d.val.toNat) h
      simp only [UInt32.toNat_add] at hval
      have hval : (c.toNat + 32) % 2 ^ 32 = 46 := hval
      omega
    · rintro rfl
      exact absurd hlow (by decide)
  · rfl

theorem splitOn_map {f : Char → Char} {c : Char} (hf : ∀ x, f x = c ↔ x = c) (chars : List Char) :
    (chars.map f).splitOn c = (chars.splitOn c).map (List.map f) := by
  induction chars with
  | nil => rfl
  | cons x rest ih =>
      have hx : (f x == c) = (x == c) := by rw [Bool.eq_iff_iff, beq_iff_eq, beq_iff_eq, hf x]
      unfold List.splitOn at ih ⊢
      rw [List.map_cons, List.splitOnP_cons_eq_if_modifyHead, List.splitOnP_cons_eq_if_modifyHead,
        ih, hx]
      split_ifs
      · rfl
      · cases List.splitOnP (fun y => y == c) rest <;> rfl

theorem ValidName.lowercase {name : String} (h : ValidName name) :
    ValidName (toAsciiLowercase name) := by
  intro label hlabel
  rw [toAsciiLowercase, String.toList_map, splitOn_map toLower_eq_dot_iff] at hlabel
  obtain ⟨original, horiginal, rfl⟩ := List.mem_map.1 hlabel
  exact fun hnil => h original horiginal (List.map_eq_nil_iff.1 hnil)

/-! ## The cut -/

theorem sliceChars_append (front back : List Char) :
    sliceChars (front ++ back) (String.utf8Len front) = some front := by
  induction front with
  | nil => cases back <;> simp [sliceChars]
  | cons c rest ih =>
      have hpos := c.utf8Size_pos
      rw [String.utf8Len_cons, List.cons_append, sliceChars, if_neg (by omega), if_pos (by omega),
        Nat.add_sub_cancel, ih]
      rfl

/-- A name below the suffix is cut behind its dot. -/
theorem sliceChars_underSuffix (label suffix : String) :
    sliceChars (underSuffix label suffix).toList
      ((underSuffix label suffix).utf8ByteSize - suffix.utf8ByteSize)
      = some (label.toList ++ ['.']) := by
  have hchars : (underSuffix label suffix).toList = (label.toList ++ ['.']) ++ suffix.toList := by
    rw [toList_underSuffix]
    simp
  have hlen : (underSuffix label suffix).utf8ByteSize - suffix.utf8ByteSize
      = String.utf8Len (label.toList ++ ['.']) := by
    rw [← String.utf8Len_toList, hchars, String.utf8Len_append, ← String.utf8Len_toList suffix,
      Nat.add_sub_cancel]
  rw [hlen, hchars, sliceChars_append]

theorem matchesSuffix_underSuffix (label suffix : String) :
    matchesSuffix (underSuffix label suffix) suffix = true := by
  have hsuffix : ('.' :: suffix.toList).isSuffixOf (underSuffix label suffix).toList = true := by
    rw [List.isSuffixOf_iff_suffix, toList_underSuffix]
    exact List.suffix_append _ _
  rw [matchesSuffix, hsuffix, Bool.or_true]

theorem PeerResolver.resolve_underSuffix (r : PeerResolver) {label : String}
    (hlabel : ValidName label) :
    r.resolve (underSuffix label r.suffix) =
      match r.names.addresses label with
      | some addrs => some (.answer addrs)
      | none => some .nxDomain := by
  have hlen : ¬ (underSuffix label r.suffix).utf8ByteSize < r.suffix.utf8ByteSize := by
    rw [underSuffix, String.utf8ByteSize_append]
    omega
  have htrim : trimEndMatches '.' (label.toList ++ ['.']) = label.toList := by
    have hdot : trimEndMatches '.' (label.toList ++ ['.']) = trimEndMatches '.' label.toList := by
      rw [trimEndMatches, List.rdropWhile_concat, if_pos (by simp)]
      rfl
    rw [hdot, hlabel.trimEndMatches_eq]
  rw [resolve, matchesSuffix_underSuffix, if_neg (by simp), if_neg hlen, sliceChars_underSuffix]
  simp only [htrim, if_neg hlabel.ne_nil, String.ofList_toList]

/-- A name is outside the suffix, the suffix itself, or below it. -/
theorem matchesSuffix_cases (name suffix : String) :
    matchesSuffix name suffix = false ∨ name = suffix ∨
      ∃ label, name = underSuffix label suffix := by
  cases hmatch : matchesSuffix name suffix with
  | false => exact .inl rfl
  | true =>
      rw [matchesSuffix, Bool.or_eq_true, beq_iff_eq, List.isSuffixOf_iff_suffix] at hmatch
      rcases hmatch with heq | ⟨front, hfront⟩
      · exact .inr (.inl heq)
      · refine .inr (.inr ⟨String.ofList front, String.ext ?_⟩)
        rw [toList_underSuffix, String.toList_ofList, hfront]

/-- The cut never panics. -/
theorem PeerResolver.resolve_isSome (r : PeerResolver) (name : String) :
    (r.resolve name).isSome = true := by
  rcases matchesSuffix_cases name r.suffix with hout | rfl | ⟨label, rfl⟩
  · rw [resolve, if_pos hout]
    rfl
  · have hcut : sliceChars r.suffix.toList 0 = some [] := by
      cases r.suffix.toList <;> rfl
    rw [resolve, if_neg (by simp [matchesSuffix]), if_neg (lt_irrefl _), Nat.sub_self, hcut]
    rfl
  · have hlen : ¬ (underSuffix label r.suffix).utf8ByteSize < r.suffix.utf8ByteSize := by
      rw [underSuffix, String.utf8ByteSize_append]
      omega
    rw [resolve, matchesSuffix_underSuffix, if_neg (by simp), if_neg hlen, sliceChars_underSuffix]
    simp only
    split_ifs
    · rfl
    · split <;> rfl

/-! ## The registry -/

/-- The registry remembers the last call for a lowercase name. -/
theorem PeerNames.addresses_run (ops : List NameOp) (key : String) :
    (PeerNames.run ops).addresses key =
      match ops.reverse.find? (fun op => toAsciiLowercase op.name == key) with
      | some (.set _ addrs) => some addrs
      | _ => none := by
  induction ops using List.reverseRecOn with
  | nil => rfl
  | append_singleton ops op ih =>
      have hrun : PeerNames.run (ops ++ [op]) = op.apply (PeerNames.run ops) := by
        simp [PeerNames.run]
      rw [hrun, List.reverse_append, List.reverse_singleton, List.singleton_append, List.find?_cons]
      by_cases hkey : toAsciiLowercase op.name = key
      · have hbeq : (toAsciiLowercase op.name == key) = true := beq_iff_eq.2 hkey
        subst hkey
        simp only [hbeq]
        cases op with
        | set name addrs => exact Function.update_self ..
        | remove name => exact Function.update_self ..
      · have hbeq : (toAsciiLowercase op.name == key) = false := by simpa using hkey
        simp only [hbeq]
        rw [← ih]
        cases op with
        | set name addrs => exact Function.update_of_ne (Ne.symm hkey) ..
        | remove name => exact Function.update_of_ne (Ne.symm hkey) ..

/-- What a peer of this name has to be found under, after these calls. -/
def expectedReply (ops : List NameOp) (name : String) : Reply :=
  match ops.reverse.find? (fun op => op.name == name) with
  | some (.set _ addrs) => .answer addrs
  | _ => .nxDomain

/-- Every peer has its own name: whatever calls were made for these names, each of them resolves to
    what was last set for it, and nothing else resolves. -/
def ServesNames (names : List String) (suffix : String) : Prop :=
  ∀ ops : List NameOp, (∀ op ∈ ops, op.name ∈ names) →
    (∀ name ∈ names, ValidName name →
      PeerResolver.resolve ⟨suffix, .run ops⟩ (underSuffix (toAsciiLowercase name) suffix)
        = some (expectedReply ops name)) ∧
    ∀ query, ValidName query → toAsciiLowercase query = query →
      (PeerResolver.resolve ⟨suffix, .run ops⟩ query).isSome = true ∧
      (matchesSuffix query suffix = false →
        PeerResolver.resolve ⟨suffix, .run ops⟩ query = some .notMine) ∧
      ∀ label, query = underSuffix label suffix →
        (∀ name ∈ names, toAsciiLowercase name ≠ label) →
        PeerResolver.resolve ⟨suffix, .run ops⟩ query = some .nxDomain

/-- Two names that are not the same stay apart in lower case. -/
def DistinctLowercase (names : List String) : Prop :=
  ∀ name ∈ names, ValidName name → ∀ other ∈ names,
    toAsciiLowercase other = toAsciiLowercase name → other = name

theorem resolve_of_distinct {names : List String} {suffix : String} {ops : List NameOp}
    (hdistinct : DistinctLowercase names) (hops : ∀ op ∈ ops, op.name ∈ names) {name : String}
    (hname : name ∈ names) (hvalid : ValidName name) :
    PeerResolver.resolve ⟨suffix, .run ops⟩ (underSuffix (toAsciiLowercase name) suffix)
      = some (expectedReply ops name) := by
  have hfind : ops.reverse.find? (fun op => toAsciiLowercase op.name == toAsciiLowercase name)
      = ops.reverse.find? (fun op => op.name == name) := by
    refine List.find?_congr ?_
    intro op hop
    have hmem : op.name ∈ names := hops op (List.mem_reverse.1 hop)
    rw [Bool.eq_iff_iff, beq_iff_eq, beq_iff_eq]
    exact ⟨hdistinct name hname hvalid op.name hmem, fun heq => by rw [heq]⟩
  rw [PeerResolver.resolve_underSuffix ⟨suffix, .run ops⟩ hvalid.lowercase]
  simp only [PeerNames.addresses_run, hfind, expectedReply]
  cases ops.reverse.find? (fun op => op.name == name) with
  | none => rfl
  | some op => cases op <;> rfl

theorem resolve_of_unknown {names : List String} {suffix label : String} {ops : List NameOp}
    (hops : ∀ op ∈ ops, op.name ∈ names) (hvalid : ValidName label)
    (hunknown : ∀ name ∈ names, toAsciiLowercase name ≠ label) :
    PeerResolver.resolve ⟨suffix, .run ops⟩ (underSuffix label suffix) = some .nxDomain := by
  have hfind : ops.reverse.find? (fun op => toAsciiLowercase op.name == label) = none := by
    refine List.find?_eq_none.2 ?_
    intro op hop
    simpa using hunknown op.name (hops op (List.mem_reverse.1 hop))
  rw [PeerResolver.resolve_underSuffix ⟨suffix, .run ops⟩ hvalid]
  simp only [PeerNames.addresses_run, hfind]

/-- Two peers write to the same entry. -/
theorem resolve_of_collision (suffix : String) {name other : String} (hvalid : ValidName name)
    (heq : toAsciiLowercase other = toAsciiLowercase name) (addrs addrs' : List IpAddr) :
    PeerResolver.resolve ⟨suffix, .run [.set name addrs, .set other addrs']⟩
      (underSuffix (toAsciiLowercase name) suffix) = some (.answer addrs') := by
  rw [PeerResolver.resolve_underSuffix _ hvalid.lowercase]
  simp [PeerNames.addresses_run, NameOp.name, heq]

/-- **Peers keep their names apart from case.** A configuration serves every peer's addresses under its
    own name exactly when no two of its peers' names differ in case only. -/
theorem servesNames_iff_distinct {PublicKey Discovery : Type} (config : Config PublicKey Discovery)
    (suffix : String) :
    ServesNames (config.peers.map Prod.fst) suffix ↔
      DistinctLowercase (config.peers.map Prod.fst) := by
  constructor
  · intro hserves name hname hvalid other hother heq
    by_contra hne
    have hops : ∀ op ∈ [NameOp.set name [.v4 0], .set other [.v4 1]],
        op.name ∈ config.peers.map Prod.fst := by
      intro op hop
      simp only [List.mem_cons, List.not_mem_nil, or_false] at hop
      rcases hop with rfl | rfl
      · exact hname
      · exact hother
    have hown := (hserves _ hops).1 name hname hvalid
    have hexpected : expectedReply [.set name [.v4 0], .set other [.v4 1]] name
        = .answer [.v4 0] := by
      have hbeq : (other == name) = false := by simpa using hne
      simp [expectedReply, NameOp.name, hbeq]
    rw [resolve_of_collision suffix hvalid heq, hexpected] at hown
    exact absurd hown (by decide)
  · intro hdistinct ops hops
    refine ⟨fun name hname hvalid => resolve_of_distinct hdistinct hops hname hvalid, ?_⟩
    intro query hquery _
    refine ⟨PeerResolver.resolve_isSome _ query, ?_, ?_⟩
    · intro hout
      rw [PeerResolver.resolve, if_pos hout]
    · rintro label rfl hunknown
      exact resolve_of_unknown hops hquery.of_underSuffix hunknown

/-- Two peers whose names differ in case only. -/
def twoAlices : RawConfig Unit where
  host := { subnet := 0, privateKeyPath := "key" }
  peers := [("Alice", "k1"), ("alice", "k2")]
  peers_nodup := by decide
  tun := { name := none, description := none }
  discovery := ()
  dns := some { suffix := "p2p" }

/-- The configuration is accepted, and the first peer's name answers with the second one's address. -/
theorem twoAlices_share_name :
    ∃ config, Config.tryFrom some twoAlices = .ok config ∧
      expectedReply [.set "Alice" [.v4 1], .set "alice" [.v4 2]] "Alice" = .answer [.v4 1] ∧
      PeerResolver.resolve ⟨"p2p", .run [.set "Alice" [.v4 1], .set "alice" [.v4 2]]⟩
        (underSuffix (toAsciiLowercase "Alice") "p2p") = some (.answer [.v4 2]) ∧
      ¬ ServesNames (config.peers.map Prod.fst) "p2p" := by
  have hvalid : ValidName "Alice" := by decide
  have heq : toAsciiLowercase "alice" = toAsciiLowercase "Alice" := by
    apply String.ext
    rw [toAsciiLowercase, toAsciiLowercase, String.toList_map, String.toList_map]
    decide
  have hshared := resolve_of_collision "p2p" hvalid heq [.v4 1] [.v4 2]
  have hexpected : expectedReply [.set "Alice" [.v4 1], .set "alice" [.v4 2]] "Alice"
      = .answer [.v4 1] := by decide
  refine ⟨_, rfl, hexpected, hshared, ?_⟩
  intro hserves
  have hown := (hserves [.set "Alice" [.v4 1], .set "alice" [.v4 2]] (by decide)).1 "Alice"
    (by decide) hvalid
  rw [hshared, hexpected] at hown
  exact absurd hown (by decide)

end P2pVpn
