import OpenLv.Signaling.Message
import OpenLv.Text.Utf8

/-!
# The bounds of a signaling message

The error texts of `validate` state bounds in characters, and `WithinBounds`
says them for a whole message. `is_bounded_string` compares them with
`str::len`, which counts the bytes of the UTF-8 encoding, so a text that keeps
its bound in characters is refused when its encoding is longer than that.
-/

namespace OpenLv

/-- The text has between one and `max` characters. -/
def Characters (max : Nat) (text : String) : Prop := 1 ≤ text.length ∧ text.length ≤ max

instance (max : Nat) (text : String) : Decidable (Characters max text) :=
  inferInstanceAs (Decidable (_ ∧ _))

/-- `peer identity` and `peer name must be 1-128 characters`, `peer icon must
be 1-8192 characters`. -/
structure PeerInfo.WithinBounds (info : PeerInfo) : Prop where
  identity : Characters 128 info.identity
  name : Characters 128 info.name
  icon : ∀ icon, info.icon = some icon → Characters 8192 icon

/-- `transports must contain 1-8 entries`, and their `identifiers must be 1-32
characters`. -/
structure PeerCapabilities.WithinBounds (capabilities : PeerCapabilities) : Prop where
  transports : 1 ≤ capabilities.transports.length ∧ capabilities.transports.length ≤ 8
  identifiers : ∀ transport ∈ capabilities.transports, Characters 32 transport
  info : ∀ info, capabilities.info = some info → info.WithinBounds

variable {Value : Type} {J : Serde Value}

/-- What the error texts ask of a message. -/
def SignalingMessage.WithinBounds (J : Serde Value) : SignalingMessage Value → Prop
  | .flash payload _ => J.isObject payload = true
  | .data payload _ => J.isObject payload = true
  | .pubkey publicKey _ => publicKey ≠ ""
  | .capabilities payload _ => payload.WithinBounds

/-- No checked text of the peer info has more bytes than it may have characters. -/
structure PeerInfo.FitsBytes (info : PeerInfo) : Prop where
  identity : info.identity.utf8ByteSize ≤ 128
  name : info.name.utf8ByteSize ≤ 128
  icon : ∀ icon, info.icon = some icon → icon.utf8ByteSize ≤ 8192

/-- No checked text has more bytes than it may have characters. -/
structure PeerCapabilities.FitsBytes (capabilities : PeerCapabilities) : Prop where
  identifiers : ∀ transport ∈ capabilities.transports, transport.utf8ByteSize ≤ 32
  info : ∀ info, capabilities.info = some info → info.FitsBytes

/-- The message has no text that is checked, or breaks a bound in characters
anyway, or no checked text has more bytes than it may have characters. -/
def SignalingMessage.FitsBytes : SignalingMessage Value → Prop
  | .capabilities payload _ => payload.WithinBounds → payload.FitsBytes
  | _ => True

theorem isBoundedString_iff (text : String) (max : Nat) :
    isBoundedString text max = true ↔ Characters max text ∧ text.utf8ByteSize ≤ max := by
  have hle := Text.length_le_utf8ByteSize text
  have hempty : text.isEmpty = false ↔ 1 ≤ text.length := by
    rw [Nat.one_le_iff_ne_zero, ne_eq, String.length_eq_zero_iff, ← Bool.not_eq_true,
      String.isEmpty_iff]
  unfold isBoundedString Characters
  rw [Bool.and_eq_true, Bool.not_eq_true', hempty, decide_eq_true_iff]
  omega

namespace PeerInfo

variable {info : PeerInfo}

theorem validate_eq_ok_iff :
    info.validate = .ok () ↔ isBoundedString info.identity 128 = true ∧
      isBoundedString info.name 128 = true ∧
        ∀ icon, info.icon = some icon → isBoundedString icon 8192 = true := by
  unfold validate
  cases isBoundedString info.identity 128 with
  | false => simp
  | true =>
      cases isBoundedString info.name 128 with
      | false => simp
      | true => cases info.icon <;> simp

theorem validate_ok_iff : info.validate = .ok () ↔ info.WithinBounds ∧ info.FitsBytes := by
  simp only [validate_eq_ok_iff, isBoundedString_iff]
  constructor
  · rintro ⟨hidentity, hname, hicon⟩
    exact ⟨⟨hidentity.1, hname.1, fun icon h => (hicon icon h).1⟩,
      ⟨hidentity.2, hname.2, fun icon h => (hicon icon h).2⟩⟩
  · rintro ⟨hwithin, hfits⟩
    exact ⟨⟨hwithin.identity, hfits.identity⟩, ⟨hwithin.name, hfits.name⟩,
      fun icon h => ⟨hwithin.icon icon h, hfits.icon icon h⟩⟩

end PeerInfo

namespace PeerCapabilities

variable {capabilities : PeerCapabilities}

theorem validate_eq_ok_iff :
    capabilities.validate = .ok () ↔
      (1 ≤ capabilities.transports.length ∧ capabilities.transports.length ≤ 8) ∧
        (∀ transport ∈ capabilities.transports, isBoundedString transport 32 = true) ∧
          ∀ info, capabilities.info = some info → info.validate = .ok () := by
  have hcount : (capabilities.transports.isEmpty ||
      decide (8 < capabilities.transports.length)) = true ↔
        ¬ (1 ≤ capabilities.transports.length ∧ capabilities.transports.length ≤ 8) := by
    rw [Bool.or_eq_true, List.isEmpty_iff, decide_eq_true_iff, ← List.length_eq_zero_iff]
    omega
  unfold validate
  by_cases hlength : 1 ≤ capabilities.transports.length ∧ capabilities.transports.length ≤ 8
  · rw [if_neg (fun h => hcount.mp h hlength)]
    by_cases hall : ∀ transport ∈ capabilities.transports, isBoundedString transport 32 = true
    · rw [if_neg (by simpa using hall)]
      cases capabilities.info with
      | none => exact ⟨fun _ => ⟨hlength, hall, nofun⟩, fun _ => rfl⟩
      | some info =>
          refine ⟨fun h => ⟨hlength, hall, ?_⟩, fun h => h.2.2 info rfl⟩
          rintro info ⟨⟩
          exact h
    · rw [if_pos (by simpa using hall)]
      exact ⟨nofun, fun h => absurd h.2.1 hall⟩
  · rw [if_pos (hcount.mpr hlength)]
    exact ⟨nofun, fun h => absurd h.1 hlength⟩

theorem validate_ok_iff :
    capabilities.validate = .ok () ↔ capabilities.WithinBounds ∧ capabilities.FitsBytes := by
  simp only [validate_eq_ok_iff, isBoundedString_iff, PeerInfo.validate_ok_iff]
  constructor
  · rintro ⟨hcount, hidentifiers, hinfo⟩
    exact ⟨⟨hcount, fun t ht => (hidentifiers t ht).1, fun info h => (hinfo info h).1⟩,
      ⟨fun t ht => (hidentifiers t ht).2, fun info h => (hinfo info h).2⟩⟩
  · rintro ⟨hwithin, hfits⟩
    exact ⟨hwithin.transports, fun t ht => ⟨hwithin.identifiers t ht, hfits.identifiers t ht⟩,
      fun info h => ⟨hwithin.info info h, hfits.info info h⟩⟩

end PeerCapabilities

/-- `validate` accepts exactly what the error texts ask for, unless a text is
refused for its bytes only. -/
theorem validate_withinBounds_iff (J : Serde Value) (message : SignalingMessage Value) :
    (message.validate J = .ok () ↔ message.WithinBounds J) ↔ message.FitsBytes := by
  have hobject : ∀ payload : Value, ((if !J.isObject payload then
      .error "signaling payload must be an object" else .ok () : Except String Unit) = .ok ()) ↔
        J.isObject payload = true := by
    intro payload
    cases J.isObject payload <;> simp
  cases message with
  | flash payload timestamp => exact iff_of_true (hobject payload) trivial
  | data payload timestamp => exact iff_of_true (hobject payload) trivial
  | pubkey publicKey timestamp =>
      refine iff_of_true ?_ trivial
      show (if publicKey.isEmpty then .error "public key must not be empty" else .ok () :
        Except String Unit) = .ok () ↔ publicKey ≠ ""
      rw [ne_eq, ← String.isEmpty_iff]
      cases publicKey.isEmpty <;> simp
  | capabilities payload timestamp =>
      show (payload.validate = .ok () ↔ payload.WithinBounds) ↔
        (payload.WithinBounds → payload.FitsBytes)
      rw [PeerCapabilities.validate_ok_iff]
      exact ⟨fun h hwithin => (h.mpr hwithin).2, fun h => ⟨And.left, fun hwithin => ⟨hwithin, h hwithin⟩⟩⟩

/-- Characters of two bytes each. -/
def accentedName (count : Nat) : String := String.ofList (List.replicate count 'é')

theorem accentedName_length (count : Nat) : (accentedName count).length = count := by
  rw [accentedName, String.length_ofList, List.length_replicate]

theorem accentedName_utf8ByteSize (count : Nat) : (accentedName count).utf8ByteSize = count * 2 := by
  rw [Text.utf8ByteSize_eq, Text.utf8Bytes, accentedName, String.toList_ofList, List.length_flatMap,
    List.map_replicate, List.sum_replicate_nat]
  rfl

/-- A peer whose name has 65 characters. -/
def accented : SignalingMessage Unit :=
  .capabilities ⟨["wrtc"], some ⟨"com.example.wallet", accentedName 65, none⟩⟩ 0

/-- The name keeps its bound of 128 characters and is refused for its 130 bytes. -/
theorem not_validate_withinBounds_accented :
    accented.WithinBounds .terse ∧
      accented.validate .terse = .error "peer name must be 1-128 characters" := by
  constructor
  · refine ⟨by decide, by decide, ?_⟩
    rintro info ⟨⟩
    refine ⟨by decide, ?_, nofun⟩
    rw [Characters, accentedName_length]
    decide
  · have hrefused : ∀ name, isBoundedString name 128 = false →
        (⟨["wrtc"], some ⟨"com.example.wallet", name, none⟩⟩ : PeerCapabilities).validate =
          .error "peer name must be 1-128 characters" := by
      intro name hname
      show (if !isBoundedString name 128 then _ else _ : Except String Unit) = _
      rw [hname]
      rfl
    apply hrefused
    rw [isBoundedString, accentedName_utf8ByteSize]
    simp

end OpenLv
