import FinanceCore.Foundation.Exceptions
import FinanceCore.Foundation.Framing
import FinanceCore.Foundation.Utf16
import FinanceCore.Foundation.Text

namespace FinanceCore.OpenclawStagingBridge

open Exceptions Framing Utf16 List

/-- The twelve fields of a delivery receipt, over the texts and the message ids of a host. -/
structure ReceiptFields (Text MessageId : Type) where
  (workspacePath attemptNonce capability deliveryMaterialVersion deliveryMaterialSha256 : Text)
  providerMessageId : MessageId
  (receiptTokenSha256 channel accountId conversationId sessionKey sourceIdentitySha256 : Text)

def ReceiptFields.map {Text Other MessageId OtherId : Type} (text : Text → Other)
    (messageId : MessageId → OtherId)
    (fields : ReceiptFields Text MessageId) : ReceiptFields Other OtherId where
  workspacePath := text fields.workspacePath
  attemptNonce := text fields.attemptNonce
  capability := text fields.capability
  deliveryMaterialVersion := text fields.deliveryMaterialVersion
  deliveryMaterialSha256 := text fields.deliveryMaterialSha256
  providerMessageId := messageId fields.providerMessageId
  receiptTokenSha256 := text fields.receiptTokenSha256
  channel := text fields.channel
  accountId := text fields.accountId
  conversationId := text fields.conversationId
  sessionKey := text fields.sessionKey
  sourceIdentitySha256 := text fields.sourceIdentitySha256

/-- The fields of a receipt under their tags, behind the version of the proof. -/
def ReceiptFields.tagged {Text : Type} (version : Text)
    (fields : ReceiptFields Text Text) : List (String × Text) :=
  [("version", version), ("workspace_path", fields.workspacePath), ("attempt_nonce", fields.attemptNonce),
    ("capability", fields.capability), ("delivery_material_version", fields.deliveryMaterialVersion),
    ("delivery_material_sha256", fields.deliveryMaterialSha256), ("provider_message_id", fields.providerMessageId),
    ("receipt_token_sha256", fields.receiptTokenSha256), ("channel", fields.channel),
    ("account_id", fields.accountId), ("conversation_id", fields.conversationId),
    ("session_key", fields.sessionKey), ("source_identity_sha256", fields.sourceIdentitySha256)]

def proofVersion : String := "finance_delivery_receipt_proof_v1"

/-- How a proof is refused, on either side. -/
inductive ProofError where
  | fieldOutOfRange
  | signingKeyMalformed
  | proofMalformed
  | workspaceMalformed
  | workspaceUnsafe
  | proofInvalid

/-- An ASCII tag has one byte for each character. -/
def asciiBytes (tag : String) : List UInt8 := tag.toList.map fun char => UInt8.ofNat char.toNat

def keyBytes : ℕ := 32

namespace Bridge

def u16be (value : ℕ) : List UInt8 := [value / 0x100, value].map UInt8.ofNat

def u32be (value : ℕ) : List UInt8 := [value / 0x1000000, value / 0x10000, value / 0x100, value].map UInt8.ofNat

def field (tag : String) (value : Units) : Except ProofError (List UInt8) := do
  let tagBytes := asciiBytes tag
  let valueBytes := toUtf8 value
  require (tagBytes.length ≠ 0 ∧ tagBytes.length ≤ 0xffff ∧ valueBytes.length ≤ 0xffffffff) .fieldOutOfRange
  return u16be tagBytes.length ++ tagBytes ++ u32be valueBytes.length ++ valueBytes

/-- The bytes that the bridge authenticates. -/
def proofMaterial (fields : ReceiptFields Units Units) : Except ProofError (List UInt8) := do
  let parts ← (fields.tagged (Utf16.encode proofVersion)).mapM fun entry => field entry.1 entry.2
  return parts.flatten

def financeDeliveryReceiptProofSha256 (hmacHex : List UInt8 → List UInt8 → String)
    (signingKey : List UInt8) (fields : ReceiptFields Units Units) : Except ProofError String := do
  require (signingKey.length = keyBytes) .signingKeyMalformed
  let material ← proofMaterial fields
  return hmacHex signingKey material

end Bridge

namespace Core

/-- The core also takes an integer, which it spells as a decimal text. -/
inductive ProviderMessageId where
  | integer (value : ℤ)
  | text (value : String)

def ProviderMessageId.str : ProviderMessageId → String
  | .integer value => toString value
  | .text value => value

def field (tag : String) (value : List UInt8) : Except ProofError (List UInt8) := do
  let tagBytes := asciiBytes tag
  require (tagBytes ≠ [] ∧ tagBytes.length ≤ 0xFFFF ∧ value.length ≤ 0xFFFFFFFF) .fieldOutOfRange
  return bigEndian 2 tagBytes.length ++ tagBytes ++ bigEndian 4 value.length ++ value

/-- The bytes that the core authenticates. -/
def proofMaterial (fields : ReceiptFields String ProviderMessageId) : Except ProofError (List UInt8) := do
  let parts ← ((fields.map id ProviderMessageId.str).tagged proofVersion).mapM fun entry =>
    field entry.1 (utf8Bytes entry.2)
  return parts.flatten

section

variable (hmacHex : List UInt8 → List UInt8 → String)

def receiptProofSha256 (signingKey : List UInt8)
    (fields : ReceiptFields String ProviderMessageId) : Except ProofError String := do
  require (signingKey.length = keyBytes) .signingKeyMalformed
  let material ← proofMaterial fields
  return hmacHex signingKey material

/-- The workspaces of a machine: which paths are safe directories, and the signing key of each. -/
structure Workspaces where
  isSafe : String → Bool
  signingKey : String → List UInt8

/-- A receipt is accepted when its proof is the one that the key of its own workspace gives. -/
def authenticateDeliveryReceipt (workspaces : Workspaces) (proof : String)
    (fields : ReceiptFields String ProviderMessageId) :
    Except ProofError (ReceiptFields String ProviderMessageId) := do
  require (proof.length = 64) .proofMalformed
  require (fields.workspacePath ≠ "") .workspaceMalformed
  require (workspaces.isSafe fields.workspacePath) .workspaceUnsafe
  let expected ← receiptProofSha256 hmacHex (workspaces.signingKey fields.workspacePath) fields
  require (expected = proof) .proofInvalid
  return fields

end

end Core

section

variable (fields : ReceiptFields String String)

/-- The values fit behind a length of four bytes. -/
def ReceiptFields.Within : Prop :=
  ∀ entry ∈ fields.tagged proofVersion, (utf8Bytes entry.2).length ≤ 0xFFFFFFFF

/-- The fields as the bridge holds them. -/
def ReceiptFields.inBridge : ReceiptFields Units Units :=
  fields.map Utf16.encode Utf16.encode

/-- The fields as the core receives them. -/
def ReceiptFields.inCore : ReceiptFields String Core.ProviderMessageId :=
  fields.map id .text

end

section Material

/-- The tag and the value of an entry as bytes. -/
def entryBytes (entry : String × String) : List UInt8 × List UInt8 := (asciiBytes entry.1, utf8Bytes entry.2)

/-- The one byte string behind a receipt. -/
def ReceiptFields.bytes (fields : ReceiptFields String String) : List UInt8 :=
  ((fields.tagged proofVersion).map entryBytes).flatMap (frame 2 4)

theorem u32be_eq (value : ℕ) : Bridge.u32be value = bigEndian 4 value := by
  simp only [Bridge.u32be, bigEndian, map_cons, map_nil, nil_append, cons_append, Nat.div_div_eq_div_mul]

/-- Every tag is a nonempty ASCII word. -/
theorem tagged_tags {Text : Type} (version : Text) (fields : ReceiptFields Text Text) :
    ∀ entry ∈ fields.tagged version, asciiBytes entry.1 ≠ [] ∧
      (asciiBytes entry.1).length ≤ 0xffff := by
  have tags : ∀ tag ∈ (fields.tagged version).map Prod.fst, asciiBytes tag ≠ [] ∧ (asciiBytes tag).length ≤ 0xffff := by
    simp only [ReceiptFields.tagged, map_cons, map_nil]
    decide
  intro entry member
  exact tags entry.1 (mem_map_of_mem member)

theorem mapM_flatten {α ε : Type} {step : α → Except ε (List UInt8)} {image : α → List UInt8}
    {entries : List α} (steps : ∀ entry ∈ entries, step entry = .ok (image entry)) :
    (do let parts ← entries.mapM step; return parts.flatten) = .ok (entries.flatMap image) := by
  have mapped : entries.mapM step = .ok (entries.map image) := by
    rw [mapM_ok]
    induction entries with
    | nil => exact .nil
    | cons entry entries ih =>
      rw [forall_mem_cons] at steps
      exact .cons steps.1 (ih steps.2)
  rw [mapped]
  rfl

theorem inBridge_tagged (fields : ReceiptFields String String) :
    fields.inBridge.tagged (Utf16.encode proofVersion) =
      (fields.tagged proofVersion).map fun entry => (entry.1, Utf16.encode entry.2) := rfl

/-- The bridge authenticates the bytes of the receipt. -/
theorem bridge_material {fields : ReceiptFields String String} (within : fields.Within) :
    Bridge.proofMaterial fields.inBridge = .ok fields.bytes := by
  rw [ReceiptFields.bytes, flatMap_map, Bridge.proofMaterial, inBridge_tagged, mapM_map]
  apply mapM_flatten
  intro entry member
  have tag := tagged_tags proofVersion fields entry member
  have fits : (toUtf8 (Utf16.encode entry.2)).length ≤ 0xffffffff := by
    rw [toUtf8_encode, ← utf8Bytes_eq]
    exact within entry member
  have accepted : require ((asciiBytes entry.1).length ≠ 0 ∧ (asciiBytes entry.1).length ≤ 0xffff ∧
      (toUtf8 (Utf16.encode entry.2)).length ≤ 0xffffffff) ProofError.fieldOutOfRange = .ok () := by
    rw [require_ok]
    exact ⟨length_eq_zero_iff.not.mpr tag.1, tag.2, fits⟩
  change Bridge.field entry.1 (Utf16.encode entry.2) = _
  rw [Bridge.field, accepted, u32be_eq, toUtf8_encode, ← utf8Bytes_eq]
  simp only [frame, counted, entryBytes, append_assoc]
  rfl

/-- The core authenticates the bytes of the receipt, and no receipt with a value that is too long. -/
theorem core_material {fields : ReceiptFields String Core.ProviderMessageId} {bytes : List UInt8} :
    Core.proofMaterial fields = .ok bytes ↔
      (fields.map id Core.ProviderMessageId.str).Within ∧
      bytes = (fields.map id Core.ProviderMessageId.str).bytes := by
  let texts := fields.map id Core.ProviderMessageId.str
  have accepts : ∀ entry ∈ texts.tagged proofVersion, (utf8Bytes entry.2).length ≤ 0xFFFFFFFF →
      Core.field entry.1 (utf8Bytes entry.2) = .ok (frame 2 4 (entryBytes entry)) := by
    intro entry member fits
    have tag := tagged_tags proofVersion texts entry member
    have accepted : require (asciiBytes entry.1 ≠ [] ∧ (asciiBytes entry.1).length ≤ 0xFFFF ∧
        (utf8Bytes entry.2).length ≤ 0xFFFFFFFF) ProofError.fieldOutOfRange = .ok () := by
      rw [require_ok]
      exact ⟨tag.1, tag.2, fits⟩
    rw [Core.field, accepted]
    simp only [frame, counted, entryBytes, append_assoc]
    rfl
  have written : texts.Within → Core.proofMaterial fields = .ok texts.bytes := by
    intro within
    exact mapM_flatten fun entry member => accepts entry member (within entry member)
  constructor
  · intro done
    have within : texts.Within := by
      have parts := done
      simp only [Core.proofMaterial, bind_ok, mapM_ok] at parts
      obtain ⟨parts, each, -⟩ := parts
      intro entry member
      obtain ⟨part, -, taken⟩ := exists_of_mem_forall₂ each.flip member
      simp only [Core.field, bind_ok, require_ok] at taken
      obtain ⟨-, ⟨-, -, fits⟩, -⟩ := taken
      exact fits
    rw [written within] at done
    exact ⟨within, (Except.ok.inj done).symm⟩
  · rintro ⟨within, rfl⟩
    exact written within

variable {first second : ReceiptFields String String}

theorem tagged_injective
    (same : (first.tagged proofVersion).map Prod.snd = (second.tagged proofVersion).map Prod.snd) :
    first = second := by
  cases first
  cases second
  simpa [ReceiptFields.tagged] using same

/-- The bytes of a receipt determine all its fields. -/
theorem bytes_injective (withinFirst : first.Within) (withinSecond : second.Within)
    (same : first.bytes = second.bytes) : first = second := by
  have fits : ∀ fields : ReceiptFields String String, fields.Within →
      ∀ field ∈ (fields.tagged proofVersion).map entryBytes, Fits 2 4 field := by
    intro fields within field member
    obtain ⟨entry, inside, rfl⟩ := mem_map.mp member
    have tag := tagged_tags proofVersion fields entry inside
    have value := within entry inside
    constructor
    · change (asciiBytes entry.1).length < 256 ^ 2
      omega
    · change (utf8Bytes entry.2).length < 256 ^ 4
      omega
  have frames := frames_injective (fits first withinFirst) (fits second withinSecond) rfl same
  apply tagged_injective
  apply map_injective_iff.mpr utf8Bytes_injective
  have values := congrArg (List.map Prod.snd) frames
  exact values

end Material

section Agreement

variable {hmacHex : List UInt8 → List UInt8 → String} {workspaces : Core.Workspaces} {proof : String}

theorem bridge_proof {key : List UInt8} {fields : ReceiptFields String String}
    (within : fields.Within) :
    Bridge.financeDeliveryReceiptProofSha256 hmacHex key fields.inBridge = .ok proof ↔
      key.length = keyBytes ∧ hmacHex key fields.bytes = proof := by
  simp only [Bridge.financeDeliveryReceiptProofSha256, bridge_material within, bind_ok, require_ok, ok_bind,
    pure_ok, exists_const]

/-- The core accepts a proof for exactly the receipts whose bytes it authenticates. -/
theorem core_accepts {fields : ReceiptFields String Core.ProviderMessageId} :
    Core.authenticateDeliveryReceipt hmacHex workspaces proof fields = .ok fields ↔
      proof.length = 64 ∧ fields.workspacePath ≠ "" ∧ workspaces.isSafe fields.workspacePath ∧
        (workspaces.signingKey fields.workspacePath).length = keyBytes ∧
        (fields.map id Core.ProviderMessageId.str).Within ∧
        hmacHex (workspaces.signingKey fields.workspacePath) (fields.map id Core.ProviderMessageId.str).bytes =
          proof := by
  simp only [Core.authenticateDeliveryReceipt, Core.receiptProofSha256, bind_ok, require_ok, pure_ok, core_material]
  constructor
  · rintro ⟨-, sized, -, named, -, safe, expected, ⟨-, key, material, ⟨within, rfl⟩, rfl⟩, -, same, -⟩
    exact ⟨sized, named, safe, key, within, same⟩
  · rintro ⟨sized, named, safe, key, within, same⟩
    exact ⟨(), sized, (), named, (), safe, _, ⟨(), key, _, ⟨within, rfl⟩, rfl⟩, (), same, trivial⟩

/-- Both sides authenticate the same bytes, the bytes determine the twelve fields, and without a collision a proof of
the bridge is accepted for its own fields and for no others. -/
theorem receipt_proof_agreement (hmacHex : List UInt8 → List UInt8 → String)
    (workspaces : Core.Workspaces) (sized : ∀ key message, (hmacHex key message).length = 64) :
    (∀ fields : ReceiptFields String String, fields.Within → ∃ bytes,
      Bridge.proofMaterial fields.inBridge = .ok bytes ∧ Core.proofMaterial fields.inCore = .ok bytes) ∧
    (∀ first second : ReceiptFields String String, first.Within → second.Within →
      Core.proofMaterial first.inCore = Core.proofMaterial second.inCore → first = second) ∧
    (∀ (fields : ReceiptFields String String) (proof : String), fields.Within →
      fields.workspacePath ≠ "" → workspaces.isSafe fields.workspacePath →
      Bridge.financeDeliveryReceiptProofSha256 hmacHex (workspaces.signingKey fields.workspacePath)
        fields.inBridge = .ok proof →
      (∀ key message, hmacHex key message = proof → message = fields.bytes) →
      ∀ other : ReceiptFields String String,
        Core.authenticateDeliveryReceipt hmacHex workspaces proof other.inCore = .ok other.inCore ↔ other = fields) := by
  refine ⟨?_, ?_, ?_⟩
  · intro fields within
    exact ⟨fields.bytes, bridge_material within, core_material.mpr ⟨within, rfl⟩⟩
  · intro first second withinFirst withinSecond same
    have firstBytes : Core.proofMaterial first.inCore = .ok first.bytes := core_material.mpr ⟨withinFirst, rfl⟩
    have secondBytes : Core.proofMaterial second.inCore = .ok second.bytes := core_material.mpr ⟨withinSecond, rfl⟩
    rw [firstBytes, secondBytes] at same
    exact bytes_injective withinFirst withinSecond (Except.ok.inj same)
  · intro fields proof within named safe made collisionFree other
    rw [bridge_proof within] at made
    obtain ⟨key, rfl⟩ := made
    rw [core_accepts]
    constructor
    · rintro ⟨-, -, -, -, withinOther, same⟩
      exact bytes_injective withinOther within (collisionFree _ _ same)
    · rintro rfl
      exact ⟨sized _ _, named, safe, key, within, rfl⟩

def sampleSha256 (digit : Char) : String := String.ofList (List.replicate 64 digit)

def sampleReceipt : ReceiptFields String String where
  workspacePath := "/srv/finance"
  attemptNonce := "nonce-1"
  capability := "reply"
  deliveryMaterialVersion := "v1"
  deliveryMaterialSha256 := sampleSha256 '1'
  providerMessageId := "930"
  receiptTokenSha256 := sampleSha256 '2'
  channel := "telegram"
  accountId := "account"
  conversationId := "conversation"
  sessionKey := "session"
  sourceIdentitySha256 := sampleSha256 '3'

/-- A digest with no collision at the sample receipt. -/
def sampleHmac (_ message : List UInt8) : String :=
  String.ofList (List.replicate 64 (if message = sampleReceipt.bytes then 'a' else 'b'))

def sampleWorkspaces : Core.Workspaces := ⟨fun path => path = "/srv/finance", fun _ => List.replicate 32 0⟩

theorem sampleReceipt_within : sampleReceipt.Within := by
  have short : ∀ entry ∈ sampleReceipt.tagged proofVersion, (utf8Bytes entry.2).length ≤ 64 := by
    decide +kernel
  intro entry member
  exact (short entry member).trans (by omega)

theorem sampleHmac_inj (key message : List UInt8)
    (same : sampleHmac key message = sampleHmac (List.replicate 32 0) sampleReceipt.bytes) :
    message = sampleReceipt.bytes := by
  by_contra different
  rw [sampleHmac, sampleHmac, if_neg different, if_pos rfl] at same
  have heads := congrArg List.head? (String.ofList_injective same)
  exact absurd heads (by decide)

/-- The proof of a receipt is accepted for it, and not for the same receipt of another message. -/
theorem receipt_proof_agreement_sample :
    let proof := sampleHmac (List.replicate 32 0) sampleReceipt.bytes
    let other := { sampleReceipt with providerMessageId := "931" }
    Core.authenticateDeliveryReceipt sampleHmac sampleWorkspaces proof sampleReceipt.inCore =
      .ok sampleReceipt.inCore ∧
    Core.authenticateDeliveryReceipt sampleHmac sampleWorkspaces proof other.inCore ≠ .ok other.inCore := by
  intro proof other
  have sized : ∀ key message, (sampleHmac key message).length = 64 := by
    intro key message
    rw [sampleHmac, String.length_ofList, List.length_replicate]
  have agreement := receipt_proof_agreement sampleHmac sampleWorkspaces sized
  have accepted := agreement.2.2 sampleReceipt proof sampleReceipt_within (by decide) (by decide)
    ((bridge_proof sampleReceipt_within).mpr ⟨by decide, rfl⟩) sampleHmac_inj
  refine ⟨(accepted sampleReceipt).mpr rfl, fun same => ?_⟩
  have message := congrArg ReceiptFields.providerMessageId ((accepted other).mp same)
  exact absurd message (by decide)

end Agreement

end FinanceCore.OpenclawStagingBridge
