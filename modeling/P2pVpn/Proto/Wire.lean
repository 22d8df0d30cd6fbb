import P2pVpn.Lib.Wire
import P2pVpn.Proto.Basic

set_option autoImplicit false

/-! # Control messages on the wire

`Codec` is what the handshake needs of the message encoding: round trips of messages that fit a stream,
and that a request cut off in transit is never taken for another one. `protoCodec` is the encoding of
`control.proto` as `prost` reads and writes it: every message merges its fields one by one, a field with
an unknown number is skipped whatever its wire type, one with a known number and another wire type than
its own is an error, absent scalars are left at their defaults. -/

namespace P2pVpn

/-- Encoding and decoding of control messages. -/
structure Codec where
  encodeRequest : ControlRequest → List UInt8
  decodeRequest : List UInt8 → Option ControlRequest
  encodeResponse : ControlResponse → List UInt8
  decodeResponse : List UInt8 → Option ControlResponse
  decodeRequest_encodeRequest : ∀ r, (encodeRequest r).length < 2 ^ 64 →
    decodeRequest (encodeRequest r) = some r
  decodeResponse_encodeResponse : ∀ r, (encodeResponse r).length < 2 ^ 64 →
    decodeResponse (encodeResponse r) = some r
  decodeRequest_of_truncated : ∀ r p, p <+: encodeRequest r → p ≠ encodeRequest r →
    ∀ q, decodeRequest p = some q → q.command = none

open Wire

/-! ## Scalars -/

/-- The UTF-8 bytes of a text. -/
def textBytes (text : String) : List UInt8 := text.toByteArray.data.toList

/-- The text, if the bytes are UTF-8. -/
def textOfBytes? (bytes : List UInt8) : Option String := String.fromUTF8? ⟨bytes.toArray⟩

@[simp] theorem textOfBytes?_textBytes (text : String) :
    textOfBytes? (textBytes text) = some text := by
  have hbytes : (⟨(textBytes text).toArray⟩ : ByteArray) = text.toByteArray := by
    simp [textBytes]
  unfold textOfBytes? String.fromUTF8?
  rw [hbytes, dif_pos text.isValidUTF8]
  rfl

/-- `int32`: sign-extended to 64 bits. -/
def int32Varint (code : Int32) : Nat := (code.toInt % 2 ^ 64).toNat

/-- The low 32 bits, as `as i32` takes them. -/
def int32OfVarint (n : Nat) : Int32 := Int32.ofInt n

@[simp] theorem int32OfVarint_int32Varint (code : Int32) :
    int32OfVarint (int32Varint code) = code := by
  have hnat : ((int32Varint code : Nat) : Int) = code.toInt % 2 ^ 64 :=
    Int.toNat_of_nonneg (Int.emod_nonneg _ (by norm_num))
  unfold int32OfVarint
  rw [hnat, ← Int32.toInt_inj, Int32.toInt_ofInt]
  have hlo := code.le_toInt
  have hhi := code.toInt_lt
  norm_num [Int.bmod_def] at hlo hhi ⊢
  split_ifs <;> omega

theorem int32Varint_lt (code : Int32) : int32Varint code < 2 ^ 64 := by
  have hlt : code.toInt % 2 ^ 64 < 2 ^ 64 := Int.emod_lt_of_pos _ (by norm_num)
  unfold int32Varint
  omega

/-- A singular `bytes` or `string` field: absent when empty. -/
def bytesField (number : Nat) (bytes : List UInt8) : List Field :=
  if bytes = [] then [] else [⟨number, .bytes bytes⟩]

/-- How deep `prost` lets messages and groups nest. -/
def RECURSION_LIMIT : Nat := 100

/-- Merges the fields of an encoded message, `level` messages below the outermost one, into `init`. -/
def decodeMessage {M : Type} (level : Nat) (merge : M → ReadField → Option M) (init : M)
    (bytes : List UInt8) : Option M :=
  match decodeFields (RECURSION_LIMIT - level) bytes with
  | some fields => fields.foldlM merge init
  | none => none

/-- The fields of a message that fits a `u64` are read as they were written. -/
theorem decodeMessage_encodeFields {M : Type} (level : Nat) (merge : M → ReadField → Option M)
    (init : M) {fields : List Field} (hfits : ∀ f ∈ fields, f.Fits) :
    decodeMessage level merge init (encodeFields fields)
      = (fields.map Field.read).foldlM merge init := by
  simp [decodeMessage, decodeFields_encodeFields _ hfits]

/-- A field with bytes fits if its message does. -/
theorem fits_bytes {number : Nat} {b : List UInt8} {fields : List Field} (hnumber : IsNumber number)
    (hmem : ⟨number, .bytes b⟩ ∈ fields) (hlen : (encodeFields fields).length < 2 ^ 64) :
    (⟨number, .bytes b⟩ : Field).Fits :=
  ⟨hnumber, (length_le_encodeField number b).trans_lt ((length_encodeField_le hmem).trans_lt hlen)⟩

theorem mem_bytesField {number : Nat} {bytes : List UInt8} {f : Field}
    (hf : f ∈ bytesField number bytes) : f = ⟨number, .bytes bytes⟩ := by
  unfold bytesField at hf
  split_ifs at hf with hempty
  · exact absurd hf (by simp)
  · exact List.mem_singleton.1 hf

/-! ## Requests -/

/-- The fields of a `HostAddress` that are not empty. -/
def encodeHostAddress (h : HostAddress) : List UInt8 :=
  encodeFields (bytesField 1 (textBytes h.peerNetwork) ++ bytesField 2 h.peerNetworkSignature)

/-- One field of a `HostAddress`. -/
def mergeHostAddress (h : HostAddress) (f : ReadField) : Option HostAddress :=
  if f.number = 1 then
    match f.value with
    | some (.bytes b) => (textOfBytes? b).map fun text => { h with peerNetwork := text }
    | _ => none
  else if f.number = 2 then
    match f.value with
    | some (.bytes b) => some { h with peerNetworkSignature := b }
    | _ => none
  else some h

/-- One field for each address. -/
def encodeAdvertise (a : Advertise) : List UInt8 :=
  encodeFields (a.ownAddresses.map fun h => ⟨2, .bytes (encodeHostAddress h)⟩)

/-- One field of an `Advertise`; an address is put at the end. -/
def mergeAdvertise (a : Advertise) (f : ReadField) : Option Advertise :=
  if f.number = 2 then
    match f.value with
    | some (.bytes b) =>
        (decodeMessage 2 mergeHostAddress ⟨"", []⟩ b).map fun h => ⟨a.ownAddresses ++ [h]⟩
    | _ => none
  else some a

/-- The command, if there is one. -/
def encodeRequest (r : ControlRequest) : List UInt8 :=
  encodeFields (r.command.elim [] fun a => [⟨2, .bytes (encodeAdvertise a)⟩])

/-- A repeated command is merged into the first. -/
def mergeRequest (r : ControlRequest) (f : ReadField) : Option ControlRequest :=
  if f.number = 2 then
    match f.value with
    | some (.bytes b) =>
        (decodeMessage 1 mergeAdvertise (r.command.getD ⟨[]⟩) b).map fun a => ⟨some a⟩
    | _ => none
  else some r

/-- A `ControlRequest` from the bytes of a whole stream. -/
def decodeRequest (bytes : List UInt8) : Option ControlRequest :=
  decodeMessage 0 mergeRequest default bytes

theorem textBytes_eq_nil {text : String} (h : textBytes text = []) : text = "" := by
  have hround := textOfBytes?_textBytes text
  rw [h] at hround
  exact (Option.some.inj hround).symm

theorem decodeHostAddress_encodeHostAddress {h : HostAddress}
    (hlen : (encodeHostAddress h).length < 2 ^ 64) :
    decodeMessage 2 mergeHostAddress ⟨"", []⟩ (encodeHostAddress h) = some h := by
  obtain ⟨text, sig⟩ := h
  unfold encodeHostAddress at hlen ⊢
  rw [decodeMessage_encodeFields]
  · by_cases htext : textBytes text = []
    · obtain rfl := textBytes_eq_nil htext
      by_cases hsig : sig = [] <;> simp [bytesField, htext, hsig, mergeHostAddress, Field.read]
    · by_cases hsig : sig = [] <;> simp [bytesField, htext, hsig, mergeHostAddress, Field.read]
  · intro f hf
    rcases List.mem_append.1 hf with hfield | hfield
    · obtain rfl := mem_bytesField hfield
      exact fits_bytes (by decide) hf hlen
    · obtain rfl := mem_bytesField hfield
      exact fits_bytes (by decide) hf hlen

/-- The entries of an `Advertise` are appended one by one. -/
theorem foldlM_mergeAdvertise (hosts : List HostAddress) (a : Advertise)
    (hfits : ∀ h ∈ hosts, (encodeHostAddress h).length < 2 ^ 64) :
    (hosts.map fun h => Field.read ⟨2, .bytes (encodeHostAddress h)⟩).foldlM mergeAdvertise a
      = some ⟨a.ownAddresses ++ hosts⟩ := by
  induction hosts generalizing a with
  | nil => simp
  | cons h rest ih =>
      obtain ⟨hh, hrest⟩ := List.forall_mem_cons.1 hfits
      have hmerge : mergeAdvertise a (Field.read ⟨2, .bytes (encodeHostAddress h)⟩)
          = some ⟨a.ownAddresses ++ [h]⟩ := by
        simp [mergeAdvertise, Field.read, decodeHostAddress_encodeHostAddress hh]
      rw [List.map_cons, List.foldlM_cons, hmerge]
      simp [ih _ hrest]

theorem decodeAdvertise_encodeAdvertise {a : Advertise}
    (hlen : (encodeAdvertise a).length < 2 ^ 64) :
    decodeMessage 1 mergeAdvertise ⟨[]⟩ (encodeAdvertise a) = some a := by
  have hfits : ∀ h ∈ a.ownAddresses, (⟨2, .bytes (encodeHostAddress h)⟩ : Field).Fits := fun h hh =>
    fits_bytes (by decide) (List.mem_map.2 ⟨h, hh, rfl⟩) hlen
  unfold encodeAdvertise
  rw [decodeMessage_encodeFields _ _ _ (List.forall_mem_map.2 hfits), List.map_map]
  exact foldlM_mergeAdvertise a.ownAddresses ⟨[]⟩ fun h hh => (hfits h hh).2

theorem decodeRequest_encodeRequest (r : ControlRequest) (hlen : (encodeRequest r).length < 2 ^ 64) :
    decodeRequest (encodeRequest r) = some r := by
  obtain ⟨_ | a⟩ := r
  · rfl
  · have hfits : (⟨2, .bytes (encodeAdvertise a)⟩ : Field).Fits :=
      fits_bytes (by decide) (List.mem_singleton.2 rfl) hlen
    have hadvertise := decodeAdvertise_encodeAdvertise hfits.2
    unfold decodeRequest encodeRequest
    rw [Option.elim_some, decodeMessage_encodeFields _ _ _ (List.forall_mem_singleton.2 hfits)]
    simp [mergeRequest, Field.read, hadvertise, default]

/-- A truncated request is empty, and then has no command, or malformed. -/
theorem decodeRequest_of_truncated (r : ControlRequest) (p : List UInt8)
    (hp : p <+: encodeRequest r) (hne : p ≠ encodeRequest r) (q : ControlRequest)
    (hq : decodeRequest p = some q) : q.command = none := by
  obtain ⟨_ | a⟩ := r
  · exact absurd (List.prefix_nil.1 hp) hne
  · have hnumber : IsNumber 2 := by decide
    rcases decodeFields_of_truncated (f := ⟨2, .bytes (encodeAdvertise a)⟩) hnumber RECURSION_LIMIT
        hp hne with rfl | hmal
    · obtain rfl := Option.some.inj hq
      rfl
    · exact absurd hq (by simp [decodeRequest, decodeMessage, hmal])

/-! ## Responses -/

/-- The code, if it is not zero, and the text, if there is one. -/
def encodeStatus (s : Status) : List UInt8 :=
  encodeFields ((if s.code = 0 then [] else [⟨1, .varint (int32Varint s.code)⟩]) ++
    s.message.elim [] fun text => [⟨2, .bytes (textBytes text)⟩])

/-- One field of a `Status`. -/
def mergeStatus (s : Status) (f : ReadField) : Option Status :=
  if f.number = 1 then
    match f.value with
    | some (.varint n) => some { s with code := int32OfVarint n }
    | _ => none
  else if f.number = 2 then
    match f.value with
    | some (.bytes b) => (textOfBytes? b).map fun text => { s with message := some text }
    | _ => none
  else some s

/-- The status, if there is one. -/
def encodeResponse (r : ControlResponse) : List UInt8 :=
  encodeFields (r.status.elim [] fun s => [⟨1, .bytes (encodeStatus s)⟩])

/-- One field of a `ControlResponse`; a repeated status is merged into the first. -/
def mergeResponse (r : ControlResponse) (f : ReadField) : Option ControlResponse :=
  if f.number = 1 then
    match f.value with
    | some (.bytes b) =>
        (decodeMessage 1 mergeStatus (r.status.getD ⟨0, none⟩) b).map fun s => ⟨some s⟩
    | _ => none
  else some r

/-- A `ControlResponse` from the bytes of a whole stream. -/
def decodeResponse (bytes : List UInt8) : Option ControlResponse :=
  decodeMessage 0 mergeResponse default bytes

theorem decodeStatus_encodeStatus {s : Status} (hlen : (encodeStatus s).length < 2 ^ 64) :
    decodeMessage 1 mergeStatus ⟨0, none⟩ (encodeStatus s) = some s := by
  obtain ⟨code, message⟩ := s
  unfold encodeStatus at hlen ⊢
  rw [decodeMessage_encodeFields]
  · by_cases hcode : code = 0 <;> cases message <;> simp [hcode, mergeStatus, Field.read]
  · intro f hf
    rcases List.mem_append.1 hf with hfield | hfield
    · split_ifs at hfield
      · exact absurd hfield (by simp)
      · obtain rfl := List.mem_singleton.1 hfield
        exact ⟨show IsNumber 1 by decide, int32Varint_lt code⟩
    · cases message with
      | none => exact absurd hfield (by simp)
      | some text =>
          obtain rfl := List.mem_singleton.1 hfield
          exact fits_bytes (by decide) hf hlen

theorem decodeResponse_encodeResponse (r : ControlResponse)
    (hlen : (encodeResponse r).length < 2 ^ 64) : decodeResponse (encodeResponse r) = some r := by
  obtain ⟨_ | s⟩ := r
  · rfl
  · have hfits : (⟨1, .bytes (encodeStatus s)⟩ : Field).Fits :=
      fits_bytes (by decide) (List.mem_singleton.2 rfl) hlen
    have hstatus := decodeStatus_encodeStatus hfits.2
    unfold decodeResponse encodeResponse
    rw [Option.elim_some, decodeMessage_encodeFields _ _ _ (List.forall_mem_singleton.2 hfits)]
    simp [mergeResponse, Field.read, hstatus, default]

/-- The encoding of `control.proto`. -/
def protoCodec : Codec where
  encodeRequest := encodeRequest
  decodeRequest := decodeRequest
  encodeResponse := encodeResponse
  decodeResponse := decodeResponse
  decodeRequest_encodeRequest := decodeRequest_encodeRequest
  decodeResponse_encodeResponse := decodeResponse_encodeResponse
  decodeRequest_of_truncated := decodeRequest_of_truncated

end P2pVpn
