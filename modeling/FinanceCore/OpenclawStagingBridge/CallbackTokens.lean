import FinanceCore.Foundation.Joining
import FinanceCore.OpenclawStagingBridge.HumanActions

namespace FinanceCore.OpenclawStagingBridge

open Joining List Utf16

def base64Char (index : ℕ) : Char :=
  "ABCDEFGHIJKLMNOPQRSTUVWXYZabcdefghijklmnopqrstuvwxyz0123456789-_".toList.getD index 'A'

def base64Group (bits : ℕ) : List Char := [bits / 262144, bits / 4096 % 64, bits / 64 % 64, bits % 64].map base64Char

/-- Three bytes become four characters; a shorter end is padded. -/
def urlsafeB64encode : List UInt8 → List Char
  | [] => []
  | [first] => (base64Group (first.toNat * 65536)).take 2 ++ ['=', '=']
  | [first, second] => (base64Group (first.toNat * 65536 + second.toNat * 256)).take 3 ++ ['=']
  | first :: second :: third :: rest =>
    base64Group (first.toNat * 65536 + second.toNat * 256 + third.toNat) ++ urlsafeB64encode rest

theorem isUrlSafe_base64Char (index : ℕ) : isUrlSafe (base64Char index) = true := by
  have listed : ∀ index < 64, isUrlSafe (base64Char index) = true := by decide +kernel
  by_cases small : index < 64
  · exact listed index small
  · rw [base64Char, getD_eq_default _ _ (by simpa using small)]
    rfl

/-- Every whole group of bytes is written without padding. -/
theorem urlsafeB64encode_groups (groups : ℕ) {bytes : List UInt8}
    (long : 3 * groups ≤ bytes.length) :
    ((urlsafeB64encode bytes).take (4 * groups)).length = 4 * groups ∧
      ((urlsafeB64encode bytes).take (4 * groups)).all isUrlSafe = true := by
  induction groups generalizing bytes with
  | zero => simp
  | succ groups ih =>
    match bytes, long with
    | first :: second :: third :: rest, long =>
      have later := @ih rest (by simpa [Nat.mul_succ] using long)
      have grouped : 4 * (groups + 1) = 4 * groups + 4 := rfl
      simp only [urlsafeB64encode, base64Group, map_cons, map_nil, cons_append, nil_append, grouped, take_succ_cons,
        length_cons, all_cons, isUrlSafe_base64Char, Bool.true_and, later.1]
      exact ⟨trivial, later.2⟩

/-- The values that a callback token binds. -/
structure BoundDecision where
  proposalPublicId : String
  version : ℤ
  contentHash : String
  action : Action
  expiry : ℤ

theorem Action.text_injective {first second : Action} (same : first.text = second.text) : first = second := by
  cases first <;> cases second <;> first | rfl | exact absurd same (by decide)

namespace BoundDecision

def parts (bound : BoundDecision) : List String :=
  [bound.proposalPublicId, toString bound.version, bound.contentHash, bound.action.text, toString bound.expiry]

def message (bound : BoundDecision) : List UInt8 := utf8Bytes ("|".intercalate bound.parts)

theorem repr_plain (value : ℤ) : '|' ∉ value.repr.toList := by
  have digits : ∀ number : ℕ, '|' ∉ (Nat.repr number).toList := by
    intro number inside
    rw [Nat.toList_repr] at inside
    exact absurd (Nat.isDigit_of_mem_toDigits (by norm_num) (by norm_num) inside) (by decide)
  cases value with
  | ofNat number => exact digits number
  | negSucc number =>
    change '|' ∉ ("-" ++ Nat.repr (number + 1)).toList
    rw [String.toList_append]
    simpa using digits (number + 1)

theorem plain_tail {bound : BoundDecision} (plain : '|' ∉ bound.contentHash.toList) :
    ∀ part ∈ bound.parts.tail, '|' ∉ part.toList := by
  have named : '|' ∉ bound.action.text.toList := by
    cases bound.action <;> decide
  simp [parts, repr_plain, plain, named]

/-- The message is read back from its end, so the proposal may hold the separator. -/
theorem message_injective {first second : BoundDecision} (plain : '|' ∉ first.contentHash.toList)
    (other : '|' ∉ second.contentHash.toList) (same : first.message = second.message) : first = second := by
  have joined : join '|' (first.proposalPublicId :: first.parts.tail) =
      join '|' (second.proposalPublicId :: second.parts.tail) := utf8Bytes_injective same
  obtain ⟨proposal, rest⟩ := join_cons_inj (forall_mem_append.mpr ⟨plain_tail plain, plain_tail other⟩) rfl joined
  simp only [parts, tail_cons, cons.injEq, and_true] at rest
  obtain ⟨version, hash, action, expiry⟩ := rest
  cases first
  cases second
  rw [BoundDecision.mk.injEq]
  exact ⟨proposal, Int.repr_injective version, hash, Action.text_injective action, Int.repr_injective expiry⟩

end BoundDecision

section

variable (digests : Digests) (key : List UInt8)

def BoundDecision.token (bound : BoundDecision) : String :=
  computeToken digests key bound.proposalPublicId bound.version bound.contentHash bound.action bound.expiry

def tokenBodyIsWellFormed (token : String) : Bool :=
  token.toList.take 7 = "fcb_v1_".toList && (token.toList.drop 7).length = 32 && (token.toList.drop 7).all isUrlSafe

def verifyToken (token : String) (bound : BoundDecision) : Bool :=
  tokenBodyIsWellFormed token && bound.token digests key = token

def decisionActions : List Action := [.confirm, .edit, .reject]

/-- The other action whose token matches, if any. -/
def findMismatchedAction (token : String) (expected : BoundDecision) : Option Action :=
  decisionActions.find? fun action =>
    action ≠ expected.action && verifyToken digests key token { expected with action }

end

variable {hmac : List UInt8 → List UInt8 → List.Vector UInt8 32} {key : List UInt8} {issued checked : BoundDecision}

/-- The body of a token, the opening of the text of the digest. -/
def tokenBody (hmac : List UInt8 → List UInt8 → List.Vector UInt8 32)
    (key message : List UInt8) : List Char :=
  (urlsafeB64encode (hmac key message).toList).take 32

section

variable {digests : Digests}
  (encoded : ∀ key message, digests.hmacBase64 key message = String.ofList (urlsafeB64encode (hmac key message).toList))
include encoded

theorem toList_token (bound : BoundDecision) :
    (bound.token digests key).toList = "fcb_v1_".toList ++ tokenBody hmac key bound.message := by
  simp [BoundDecision.token, computeToken, encoded, tokenBody, BoundDecision.message, BoundDecision.parts]

theorem token_wellFormed (bound : BoundDecision) : tokenBodyIsWellFormed (bound.token digests key) = true := by
  have body := @urlsafeB64encode_groups 8 (hmac key bound.message).toList (by simp)
  rw [tokenBodyIsWellFormed, toList_token encoded]
  simp only [Bool.and_eq_true, decide_eq_true_iff]
  exact ⟨⟨rfl, body.1⟩, body.2⟩

/-- A token is accepted for the decision it was issued for and for no other. -/
theorem verifyToken_iff (plain : '|' ∉ issued.contentHash.toList)
    (other : '|' ∉ checked.contentHash.toList)
    (apart : Set.InjOn (tokenBody hmac key) {issued.message, checked.message}) :
    verifyToken digests key (issued.token digests key) checked = true ↔ issued = checked := by
  rw [verifyToken, token_wellFormed encoded, Bool.true_and, decide_eq_true_iff, ← String.toList_inj,
    toList_token encoded, toList_token encoded, append_cancel_left_eq]
  constructor
  · intro same
    exact BoundDecision.message_injective plain other (Set.injOn_pair.mp apart same.symm)
  · rintro rfl
    rfl

end

/-- A token is accepted only for the values it was issued for, and another action is found exactly when it was
issued for that action and the same other values; the HMAC does not confuse the messages at hand. -/
theorem callback_tokens_bind (digests : Digests) (hmac : List UInt8 → List UInt8 → List.Vector UInt8 32)
    (encoded : ∀ key message, digests.hmacBase64 key message = String.ofList (urlsafeB64encode (hmac key message).toList))
    (key : List UInt8) (issued checked : BoundDecision) (plain : '|' ∉ issued.contentHash.toList)
    (other : '|' ∉ checked.contentHash.toList)
    (apart : ∀ action, Set.InjOn (tokenBody hmac key) {issued.message, BoundDecision.message { checked with action }}) :
    (verifyToken digests key (issued.token digests key) checked = true ↔ issued = checked) ∧
    ∀ action, findMismatchedAction digests key (issued.token digests key) checked = some action ↔
      action ≠ checked.action ∧ issued = { checked with action } := by
  have accepts (action : Action) :
      verifyToken digests key (issued.token digests key) { checked with action } = true ↔
        issued = { checked with action } := verifyToken_iff encoded plain other (apart action)
  have tested (action : Action) : (decide (action ≠ checked.action) &&
      verifyToken digests key (issued.token digests key) { checked with action }) = true ↔
      action ≠ checked.action ∧ issued = { checked with action } := by
    rw [Bool.and_eq_true, decide_eq_true_iff, accepts]
  refine ⟨accepts checked.action, fun action => ?_⟩
  rw [findMismatchedAction]
  constructor
  · intro found
    have passes := find?_some found
    exact (tested action).mp passes
  · intro holds
    cases found : decisionActions.find? _ with
    | none =>
      have listed : action ∈ decisionActions := by
        cases action <;> decide
      exact absurd ((tested action).mpr holds) (find?_eq_none.mp found action listed)
    | some answer =>
      have passes := find?_some found
      have same := ((tested answer).mp passes).2.symm.trans holds.2
      rw [(BoundDecision.mk.inj same).2.2.2.1]

/-- A keyed checksum of thirty-two bytes that stands for the HMAC. -/
def checksumHmac (key message : List UInt8) : List.Vector UInt8 32 :=
  let step (sum : ℕ) (byte : UInt8) := (257 * sum + byte.toNat) % 1000003
  .ofFn fun index => UInt8.ofNat ((key ++ message).foldl step (index + 1))

def checksumDigests : Digests :=
  ⟨fun _ => "", fun key message => String.ofList (urlsafeB64encode (checksumHmac key message).toList)⟩

def sampleDecision (action : Action) : BoundDecision :=
  ⟨"proposal|1", 2, "9f86d081884c7d659a2feaa0c55ad015a3bf4f1b2b0b822cd15d6c15b0f00a08", action, 1700000000⟩

/-- A token for an edit is refused as a confirmation, and the edit is found. -/
theorem callback_tokens_bind_edit :
    let key := List.replicate 32 7
    let token := (sampleDecision .edit).token checksumDigests key
    verifyToken checksumDigests key token (sampleDecision .confirm) = false ∧
    findMismatchedAction checksumDigests key token (sampleDecision .confirm) = some .edit := by
  intro key token
  have apart (action : Action) : Set.InjOn (tokenBody checksumHmac key)
      {(sampleDecision .edit).message, (sampleDecision action).message} := by
    apply Set.injOn_pair.mpr
    cases action <;> decide +kernel
  have bind := callback_tokens_bind checksumDigests checksumHmac (fun _ _ => rfl) key (sampleDecision .edit)
    (sampleDecision .confirm) (by decide) (by decide) apart
  refine ⟨Bool.eq_false_iff.mpr fun accepted => ?_, (bind.2 .edit).mpr ⟨by decide, rfl⟩⟩
  cases congrArg BoundDecision.action (bind.1.mp accepted)

end FinanceCore.OpenclawStagingBridge
