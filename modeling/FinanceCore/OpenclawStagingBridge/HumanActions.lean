import FinanceCore.Foundation.Operations
import FinanceCore.Foundation.Sorting
import FinanceCore.Foundation.Framing
import FinanceCore.Foundation.Utf16

namespace FinanceCore.OpenclawStagingBridge

open Exceptions Operations Sorting Framing Utf16

inductive Action where
  | confirm
  | edit
  | reject
deriving DecidableEq

def Action.text : Action → String
  | .confirm => "confirm"
  | .edit => "edit"
  | .reject => "reject"

def referenceActions : List Action := [.confirm, .edit, .reject]

/-- What a reference may be redeemed for. -/
inductive Purpose where
  | d2PostV1
  | d2PostAcceptedPre050V1
  | d2PostFencedPre050V1
  | editV1
  | rejectV1
  | manualS5dV1
  | legacyPre050V1
deriving DecidableEq

def defaultActionPurposes : Action → Purpose
  | .confirm => .manualS5dV1
  | .edit => .editV1
  | .reject => .rejectV1

/-- The purposes that only the posting path redeems. -/
def Purpose.requiresD2 : Purpose → Bool
  | .d2PostV1 | .d2PostAcceptedPre050V1 | .d2PostFencedPre050V1 => true
  | _ => false

inductive Refusal where
  | issuanceConflict
  | generationInvalid
  | generationStale
  | actionUnavailable
  | proposalMissing
  | proposalTerminal
  | staleVersion
  | staleContentHash
  | referenceConsumed
  | referenceExpiring
  | referenceIntegrity
  | referenceInvalid
  | wrongAction
  | referencePurposeInvalid
  | referencePurposeMismatch
  | referenceRequiresD2Redemption
  | actorOrContextMismatch
  | referenceExpired
  | referenceReplayed

/-- A call is refused with a reason, a table refuses a row, or the proposal or the caller's own code raises. -/
inductive HumanActionFailure where
  | refused (reason : Refusal)
  | constraint
  | payload
  | effect (message : String)

structure HumanActionContext where
  (actorId accountId conversationId bindingId : String)
deriving DecidableEq

inductive ParseStatus where
  | parsedPendingConfirmation
  | confirmed
  | rejected
  | editedPendingConfirmation
  | superseded
  | expired

def ParseStatus.isTerminal : ParseStatus → Bool
  | .confirmed | .rejected | .superseded | .expired => true
  | .parsedPendingConfirmation | .editedPendingConfirmation => false

/-- The state of a proposal that a reference is bound to. -/
structure Target where
  parserOutputId : ℕ
  proposalVersion : ℤ
  proposalContentHash : String
deriving DecidableEq

/-- A proposal with its effective version and content hash, when its payload resolves. -/
structure Proposal where
  id : ℕ
  publicId : String
  parseStatus : ParseStatus
  effective : Option (ℤ × String)

inductive DraftState where
  | active
  | expired
  | confirmed
  | rejected
  | superseded
deriving DecidableEq

structure Draft where
  id : ℕ
  state : DraftState
  expiresAt : ℤ
  currentCardGeneration : String
  current : Option Target
  decisionTarget : Target
  context : HumanActionContext

/-- A human card with the completeness of the operation that it shows. -/
structure Card where
  generation : String
  draftId : ℕ
  draftVersion : ℤ
  parserOutputId : Option ℕ
  decisionTarget : Target
  complete : Bool
  context : HumanActionContext
  expiresAt : ℤ

structure Publication where
  draftId : ℕ
  draftVersion : ℤ
  target : Target
deriving DecidableEq

/-- The tables of other components, as one call meets them. -/
structure Surroundings where
  proposals : List Proposal
  drafts : List Draft
  cards : List Card
  publications : List Publication

namespace Surroundings

variable (surroundings : Surroundings)

def proposal? (id : ℕ) : Option Proposal := surroundings.proposals.find? (·.id = id)

def proposalNamed? (publicId : String) : Option Proposal := surroundings.proposals.find? (·.publicId = publicId)

def draft? (id : ℕ) : Option Draft := surroundings.drafts.find? (·.id = id)

def card? (generation : String) : Option Card := surroundings.cards.find? (·.generation = generation)

def isPublished (card : Card) : Bool :=
  surroundings.publications.contains ⟨card.draftId, card.draftVersion, card.decisionTarget⟩

end Surroundings

structure ReferenceRow where
  id : ℕ
  (publicId referenceSha256 issuanceKey : String)
  target : Target
  action : Action
  context : HumanActionContext
  (ttlSeconds expiresAt issuedAt : ℤ)

structure BindingRow where
  referenceId : ℕ
  generation : String
  draftId : ℕ
  target : Target
  context : HumanActionContext
  createdAt : ℤ

structure PurposeRow where
  referenceId : ℕ
  purpose : Purpose

structure RedemptionRow where
  referenceId : ℕ
  callbackIdSha256 : String
  (callbackMessageId redeemedAt : ℤ)

/-- The append-only tables of the references. -/
structure ReferenceTables where
  references : List ReferenceRow
  bindings : List BindingRow
  purposes : List PurposeRow
  redemptions : List RedemptionRow

def ReferenceTables.empty : ReferenceTables := ⟨[], [], [], []⟩

def isLowerHex (char : Char) : Bool := ('0' ≤ char && char ≤ '9') || ('a' ≤ char && char ≤ 'f')

def isLowerHexText (length : ℕ) (text : String) : Bool := text.length = length && text.toList.all isLowerHex

def isTelegramId (text : String) : Bool :=
  1 ≤ text.length && text.length ≤ 32 && text.toList.all (fun char => '0' ≤ char && char ≤ '9') &&
    text.toList.head? ≠ some '0'

def isVisibleText (text : String) : Bool :=
  1 ≤ text.length && text.length ≤ 200 && text.toList.all fun char => '!' ≤ char && char ≤ '~'

/-- A text of a fixed beginning and a number of lower-case hexadecimal digits. -/
def isTagged (tag : String) (digits : ℕ) (text : String) : Bool :=
  text.toList.take tag.length = tag.toList && text.length = tag.length + digits &&
    (text.toList.drop tag.length).all isLowerHex

/-- The constraints on the columns of a reference. -/
def ReferenceRow.isAdmitted (row : ReferenceRow) : Bool :=
  isTagged "haref_" 32 row.publicId && isLowerHexText 64 row.referenceSha256 &&
    isTagged "bridge-human-action-issue:" 32 row.issuanceKey && 0 ≤ row.target.proposalVersion &&
    isLowerHexText 64 row.target.proposalContentHash && isTelegramId row.context.actorId &&
    isVisibleText row.context.accountId && isTelegramId row.context.conversationId &&
    isVisibleText row.context.bindingId && 60 ≤ row.ttlSeconds && row.ttlSeconds ≤ 3600 && 0 < row.expiresAt &&
    row.expiresAt < 2 ^ 63 && row.context.actorId = row.context.conversationId

namespace ReferenceTables

variable (tables : ReferenceTables)

def nextReferenceId : ℕ := ((tables.references.argmax (·.id)).map (·.id)).getD 0 + 1

def redemption? (referenceId : ℕ) : Option RedemptionRow := tables.redemptions.find? (·.referenceId = referenceId)

def purpose? (referenceId : ℕ) : Option Purpose :=
  (tables.purposes.find? (·.referenceId = referenceId)).map (·.purpose)

def binding? (referenceId : ℕ) : Option BindingRow := tables.bindings.find? (·.referenceId = referenceId)

def insertReference (row : ReferenceRow) : Except HumanActionFailure ReferenceTables := do
  require (row.isAdmitted) .constraint
  require (∀ other ∈ tables.references, other.publicId ≠ row.publicId ∧
    other.referenceSha256 ≠ row.referenceSha256 ∧ ¬ (other.issuanceKey = row.issuanceKey ∧ other.action = row.action))
    .constraint
  return { tables with references := tables.references ++ [row] }

/-- A binding repeats the columns of its reference and of the draft it belongs to. -/
def insertBinding (surroundings : Surroundings) (row : BindingRow) : Except HumanActionFailure ReferenceTables := do
  require (0 < row.createdAt ∧ ∀ other ∈ tables.bindings, other.referenceId ≠ row.referenceId) .constraint
  require (∃ reference ∈ tables.references, reference.id = row.referenceId ∧ reference.target = row.target ∧
    reference.context = row.context) .constraint
  require (∃ draft ∈ surroundings.drafts, draft.id = row.draftId ∧ draft.context = row.context) .constraint
  return { tables with bindings := tables.bindings ++ [row] }

def insertPurpose (row : PurposeRow) : Except HumanActionFailure ReferenceTables := do
  require (∀ other ∈ tables.purposes, other.referenceId ≠ row.referenceId) .constraint
  return { tables with purposes := tables.purposes ++ [row] }

def insertRedemption (row : RedemptionRow) : Except HumanActionFailure ReferenceTables := do
  require (isLowerHexText 64 row.callbackIdSha256 ∧ 0 < row.callbackMessageId ∧ row.callbackMessageId < 2 ^ 63) .constraint
  require (∀ other ∈ tables.redemptions, other.referenceId ≠ row.referenceId ∧
    other.callbackIdSha256 ≠ row.callbackIdSha256) .constraint
  return { tables with redemptions := tables.redemptions ++ [row] }

end ReferenceTables

/-- The hash, and the keyed hash in the URL-safe alphabet. -/
structure Digests where
  sha256Hex : List UInt8 → String
  hmacBase64 : List UInt8 → List UInt8 → String

def referencePrefix : String := "fha1_"

def referenceBodyLength : ℕ := 24

def isUrlSafe (char : Char) : Bool :=
  ('A' ≤ char && char ≤ 'Z') || ('a' ≤ char && char ≤ 'z') || ('0' ≤ char && char ≤ '9') || char = '-' || char = '_'

def referenceIsWellFormed (reference : String) : Bool :=
  reference.toList.take referencePrefix.length = referencePrefix.toList &&
    (reference.toList.drop referencePrefix.length).length = referenceBodyLength &&
    (reference.toList.drop referencePrefix.length).all isUrlSafe

def encodeMaterial (parts : List String) : List UInt8 := parts.flatMap fun part => counted 4 (utf8Bytes part)

section Material

variable (digests : Digests)

def sha256Text (text : String) : String := digests.sha256Hex (utf8Bytes text)

def referencePublicId (issuanceKey : String) (action : Action) : String :=
  "haref_" ++ ((digests.sha256Hex
    (encodeMaterial ["openclaw-human-action-public-v1", issuanceKey, action.text])).take 32).toString

def referenceMaterial (publicId proposalPublicId : String) (action : Action) (proposalVersion : ℤ)
    (proposalContentHash : String) (context : HumanActionContext) (expiresAt : ℤ)
    (generation : Option String) :
    List UInt8 :=
  let bound := [publicId, proposalPublicId, action.text, toString proposalVersion, proposalContentHash,
    context.actorId, context.accountId, context.conversationId, context.bindingId]
  match generation with
  | none => encodeMaterial ("openclaw-human-action-reference-v1" :: bound ++ [toString expiresAt])
  | some generation =>
    encodeMaterial ("openclaw-human-action-reference-d1-v1" :: bound ++ [generation, toString expiresAt])

/-- The opaque reference that authorises one action on one state of a proposal. -/
def referenceValue (key : List UInt8) (publicId proposalPublicId : String) (action : Action)
    (proposalVersion : ℤ)
    (proposalContentHash : String) (context : HumanActionContext) (expiresAt : ℤ)
    (generation : Option String) :
    String :=
  referencePrefix ++ ((digests.hmacBase64 key (referenceMaterial publicId proposalPublicId action proposalVersion
    proposalContentHash context expiresAt generation)).take referenceBodyLength).toString

def computeToken (key : List UInt8) (proposalPublicId : String) (version : ℤ) (contentHash : String)
    (action : Action) (expiry : ℤ) : String :=
  "fcb_v1_" ++ ((digests.hmacBase64 key (utf8Bytes ("|".intercalate
    [proposalPublicId, toString version, contentHash, action.text, toString expiry]))).take 32).toString

end Material

/-- A reference with the rows that belong to it. -/
structure ReferenceView where
  reference : ReferenceRow
  proposalPublicId : String
  redemption : Option RedemptionRow
  purpose : Option Purpose
  binding : Option BindingRow
  card : Option Card
  draft : Option Draft

def ReferenceView.generation (view : ReferenceView) : Option String := view.binding.map (·.generation)

section Views

variable (surroundings : Surroundings) (tables : ReferenceTables)

def referenceView (reference : ReferenceRow) : Option ReferenceView :=
  (surroundings.proposal? reference.target.parserOutputId).map fun proposal =>
    { reference
      proposalPublicId := proposal.publicId
      redemption := tables.redemption? reference.id
      purpose := tables.purpose? reference.id
      binding := tables.binding? reference.id
      card := (tables.binding? reference.id).bind fun binding => surroundings.card? binding.generation
      draft := (tables.binding? reference.id).bind fun binding => surroundings.draft? binding.draftId }

def referenceRowsForIssuance (issuanceKey : String) : List ReferenceView :=
  sortOn (·.reference.action.text) ((tables.references.filter (·.issuanceKey = issuanceKey)).filterMap
    (referenceView surroundings tables))

def referenceRow (digests : Digests) (reference : String) : Option ReferenceView :=
  (tables.references.find? (·.referenceSha256 = sha256Text digests reference)).bind
    (referenceView surroundings tables)

end Views

structure IssuedHumanActionReference where
  action : Action
  reference : String
  expiresAt : ℤ

structure HumanDraftDecisionBinding where
  (referencePublicId generation : String)
  context : HumanActionContext

structure RedeemedHumanAction where
  referencePublicId : String
  action : Action
  proposalPublicId : String
  proposalVersion : ℤ
  (proposalContentHash callbackToken : String)
  callbackExpiry : ℤ
  actorId : String
  d1DecisionBinding : Option HumanDraftDecisionBinding
  idempotentReplay : Bool

/-- The arguments of an issuance; the mapping of purposes is partial. -/
structure Issuance where
  key : List UInt8
  (issuanceKey proposalPublicId : String)
  expectedVersion : ℤ
  expectedContentHash : String
  context : HumanActionContext
  (ttlSeconds minimumRemainingSeconds : ℤ)
  requireUnconsumedReplay : Bool
  allowedActions : List Action
  generation : Option String
  fallbackKeys : List String
  actionPurposes : Option (Action → Option Purpose)
  issuanceEffect : List ReferenceView → List IssuedHumanActionReference → ℤ → Except HumanActionFailure Unit

namespace Issuance

variable (issuance : Issuance)

def purposes (action : Action) : Option Purpose :=
  match issuance.actionPurposes with
  | none => if action ∈ issuance.allowedActions then some (defaultActionPurposes action) else none
  | some purposes => purposes action

def keys : List String := issuance.issuanceKey :: issuance.fallbackKeys

/-- The checks on the arguments alone. -/
def requireArguments : Except HumanActionFailure Unit := do
  require (issuance.allowedActions ≠ [] ∧ issuance.allowedActions.Nodup) (.refused .issuanceConflict)
  require (∀ action ∈ referenceActions, (issuance.purposes action).isSome ↔ action ∈ issuance.allowedActions)
    (.refused .issuanceConflict)
  require (0 ≤ issuance.minimumRemainingSeconds ∧ issuance.minimumRemainingSeconds < issuance.ttlSeconds)
    (.refused .issuanceConflict)
  require (issuance.keys.length ≤ 16 ∧ issuance.keys.Nodup) (.refused .issuanceConflict)

/-- Whether the rows of a key are those that this issuance would write. -/
def rowsMatch (rows : List ReferenceView) : Bool :=
  rows.length = issuance.allowedActions.length &&
    referenceActions.all (fun action => rows.any (·.reference.action = action) == issuance.allowedActions.contains action) &&
    rows.all fun view =>
      view.proposalPublicId = issuance.proposalPublicId &&
        view.reference.target.proposalVersion = issuance.expectedVersion &&
        view.reference.target.proposalContentHash = issuance.expectedContentHash &&
        view.reference.context = issuance.context && view.reference.ttlSeconds = issuance.ttlSeconds &&
        view.generation = issuance.generation && view.purpose = issuance.purposes view.reference.action

section

variable (surroundings : Surroundings)

/-- A confirmation needs the card of a complete and published draft. -/
def requireConfirmable (card : Card) (draft : Draft) : Except HumanActionFailure Unit :=
  require (Action.confirm ∈ issuance.allowedActions → card.complete ∧
    card.parserOutputId = some card.decisionTarget.parserOutputId ∧ draft.current = some card.decisionTarget ∧
    surroundings.isPublished card) (.refused .actionUnavailable)

def requireD1Card (generation : String) (now : ℤ) : Except HumanActionFailure Card := do
  let card ← expect (surroundings.card? generation) (.refused .generationInvalid)
  let draft ← expect (surroundings.draft? card.draftId) (.refused .generationInvalid)
  let target ← expect (surroundings.proposal? card.decisionTarget.parserOutputId) (.refused .generationInvalid)
  require (draft.state = .active ∧ draft.currentCardGeneration = generation ∧
    target.publicId = issuance.proposalPublicId ∧ card.decisionTarget.proposalVersion = issuance.expectedVersion ∧
    card.decisionTarget.proposalContentHash = issuance.expectedContentHash ∧ card.context = issuance.context ∧
    now < card.expiresAt ∧ now < draft.expiresAt) (.refused .generationStale)
  issuance.requireConfirmable surroundings card draft
  return card

/-- An issuance without a card needs none. -/
def d1Card (now : ℤ) : Except HumanActionFailure (Option Card) :=
  match issuance.generation with
  | none => return none
  | some generation => some <$> issuance.requireD1Card surroundings generation now

end

/-- The first key whose rows are absent or those of this issuance; rows of the same card under other terms refuse it. -/
def selectKey (rowsFor : String → List ReferenceView) :
    List String → Except HumanActionFailure (String × List ReferenceView)
  | [] => throw (.refused .issuanceConflict)
  | key :: rest =>
    if rowsFor key = [] then return (key, [])
    else if issuance.rowsMatch (rowsFor key) then return (key, rowsFor key)
    else if issuance.generation ∈ (rowsFor key).map (·.generation) then throw (.refused .issuanceConflict)
    else selectKey rowsFor rest

end Issuance

/-- The proposal is open and has the expected version and content hash. -/
def requireProposal (proposal : Proposal) (version : ℤ)
    (contentHash : String) : Except HumanActionFailure Unit := do
  let effective ← expect proposal.effective .payload
  require (¬ proposal.parseStatus.isTerminal) (.refused .proposalTerminal)
  require (effective.1 = version) (.refused .staleVersion)
  require (effective.2 = contentHash) (.refused .staleContentHash)

section Calls

variable (digests : Digests) (world : World) (surroundings : Surroundings)

abbrev ReferenceOperation (α : Type) := Operation ReferenceTables HumanActionFailure α

def issuedFromRow (key : List UInt8) (view : ReferenceView) :
    Except HumanActionFailure IssuedHumanActionReference := do
  let row := view.reference
  let reference := referenceValue digests key row.publicId view.proposalPublicId row.action row.target.proposalVersion
    row.target.proposalContentHash row.context row.expiresAt view.generation
  require (sha256Text digests reference = row.referenceSha256) (.refused .referenceIntegrity)
  return ⟨row.action, reference, row.expiresAt⟩

/-- The references of an earlier issuance, rebuilt from their rows. -/
def reissue (issuance : Issuance) (existing : List ReferenceView) (now : ℤ) :
    Except HumanActionFailure (List IssuedHumanActionReference) := do
  let first ← expect existing.head? (.refused .issuanceConflict)
  let proposal ← expect (surroundings.proposal? first.reference.target.parserOutputId) (.refused .proposalMissing)
  requireProposal proposal issuance.expectedVersion issuance.expectedContentHash
  require (issuance.requireUnconsumedReplay → ∀ view ∈ existing, view.redemption = none) (.refused .referenceConsumed)
  require (∀ view ∈ existing, now + issuance.minimumRemainingSeconds < view.reference.expiresAt)
    (.refused .referenceExpiring)
  let issued ← existing.mapM (issuedFromRow digests issuance.key)
  issuance.issuanceEffect existing issued now
  return issued

def referenceFor (issuance : Issuance) (key : String) (target : Target) (now : ℤ)
    (action : Action) : String :=
  referenceValue digests issuance.key (referencePublicId digests key action) issuance.proposalPublicId action
    target.proposalVersion target.proposalContentHash issuance.context (now + issuance.ttlSeconds) issuance.generation

def newReference (issuance : Issuance) (key : String) (target : Target) (now : ℤ) (action : Action)
    (id : ℕ) :
    ReferenceRow where
  id := id
  publicId := referencePublicId digests key action
  referenceSha256 := sha256Text digests (referenceFor digests issuance key target now action)
  issuanceKey := key
  target := target
  action := action
  context := issuance.context
  ttlSeconds := issuance.ttlSeconds
  expiresAt := now + issuance.ttlSeconds
  issuedAt := now

/-- The binding of a reference to the card it is shown on, when there is one. -/
def bindCard (issuance : Issuance) (card : Option Card) (referenceId : ℕ)
    (now : ℤ) : ReferenceOperation Unit :=
  match card with
  | none => pure ()
  | some card => writing fun tables => tables.insertBinding surroundings
      ⟨referenceId, card.generation, card.draftId, card.decisionTarget, issuance.context, now⟩

def issueAction (issuance : Issuance) (card : Option Card) (key : String) (target : Target)
    (now : ℤ) (action : Action) : ReferenceOperation IssuedHumanActionReference := do
  let referenceId ← reading fun tables => .ok tables.nextReferenceId
  writing fun tables => tables.insertReference (newReference digests issuance key target now action referenceId)
  bindCard surroundings issuance card referenceId now
  let purpose ← raising (expect (issuance.purposes action) (.refused .issuanceConflict))
  writing fun tables => tables.insertPurpose ⟨referenceId, purpose⟩
  return ⟨action, referenceFor digests issuance key target now action, now + issuance.ttlSeconds⟩

def issueActions (issuance : Issuance) (card : Option Card) (key : String) (target : Target)
    (now : ℤ) :
    List Action → ReferenceOperation (List IssuedHumanActionReference)
  | [] => pure []
  | action :: rest => do
    let issued ← issueAction digests surroundings issuance card key target now action
    let later ← issueActions issuance card key target now rest
    return issued :: later

def issueFresh (issuance : Issuance) (card : Option Card) (key : String) (now : ℤ) :
    ReferenceOperation (List IssuedHumanActionReference) := do
  let proposal ← raising (expect (surroundings.proposalNamed? issuance.proposalPublicId) (.refused .proposalMissing))
  raising (requireProposal proposal issuance.expectedVersion issuance.expectedContentHash)
  let target : Target := ⟨proposal.id, issuance.expectedVersion, issuance.expectedContentHash⟩
  let issued ← issueActions digests surroundings issuance card key target now issuance.allowedActions
  reading fun tables => issuance.issuanceEffect (referenceRowsForIssuance surroundings tables key) issued now
  return issued

/-- The rows of an earlier issuance are given again; otherwise new ones are written. -/
def issueUnder (issuance : Issuance) (card : Option Card) (now : ℤ)
    (selected : String × List ReferenceView) :
    ReferenceOperation (List IssuedHumanActionReference × Bool) :=
  match selected.2 with
  | [] => (·, false) <$> issueFresh digests surroundings issuance card selected.1 now
  | _ :: _ => (·, true) <$> raising (reissue digests surroundings issuance selected.2 now)

def issueHumanActionReferences (issuance : Issuance) :
    ReferenceOperation (List IssuedHumanActionReference × Bool) := do
  raising issuance.requireArguments
  transaction do
    let moment ← now world
    let card ← raising (issuance.d1Card surroundings moment)
    let selected ← reading fun tables =>
      issuance.selectKey (referenceRowsForIssuance surroundings tables) issuance.keys
    issueUnder digests surroundings issuance card moment selected

/-- The arguments of a redemption. -/
structure Redemption where
  key : List UInt8
  reference : String
  action : Action
  context : HumanActionContext
  callbackId : String
  callbackMessageId : ℤ
  requiredPurpose : Option Purpose
  actionValidator : ReferenceView → Action → Except HumanActionFailure Unit
  redemptionEffect : ReferenceView → Action → ℤ → Except HumanActionFailure Unit

section

variable (view : ReferenceView)

/-- A confirmation of a bound reference needs the card of a complete and published draft. -/
def requireConfirmed (card : Card) (draft : Draft) : Except HumanActionFailure Unit :=
  require (card.complete ∧ card.parserOutputId = some card.decisionTarget.parserOutputId ∧
    draft.current = some view.reference.target ∧ surroundings.isPublished card) (.refused .generationStale)

/-- A reference that was redeemed before may be replayed on the draft that its action has ended. -/
def isTerminalReplay (action : Action) (draft : Draft) : Bool :=
  view.redemption.isSome && (decide (action = .confirm ∧ draft.state = .confirmed) ||
    decide (action = .reject ∧ draft.state = .rejected))

def requireCurrent (action : Action) (generation : String) (card : Card) (draft : Draft)
    (now : ℤ) : Except HumanActionFailure Unit := do
  require (now < card.expiresAt ∧ now < draft.expiresAt ∧
    (draft.state = .active ∨ isTerminalReplay view action draft) ∧ view.reference.target = card.decisionTarget ∧
    view.reference.target = draft.decisionTarget) (.refused .generationStale)
  require (action ≠ .reject → draft.currentCardGeneration = generation) (.refused .generationStale)
  if action = .confirm then requireConfirmed surroundings view card draft

def requireD1RedemptionFreshness (action : Action) (now : ℤ) : Except HumanActionFailure Unit :=
  match view.generation with
  | none => return ()
  | some generation => do
    let card ← expect view.card (.refused .generationStale)
    let draft ← expect view.draft (.refused .generationStale)
    requireCurrent surroundings view action generation card draft now

end

/-- Only a caller who names a purpose redeems a reference of the posting path. -/
def requirePurpose (required : Option Purpose) (purpose : Purpose) : Except HumanActionFailure Unit :=
  match required with
  | some required => require (purpose = required) (.refused .referencePurposeMismatch)
  | none => require (¬ purpose.requiresD2) (.refused .referenceRequiresD2Redemption)

section

variable (redemption : Redemption)

section

variable (view : ReferenceView)

/-- What a reference must satisfy at every redemption, a repeated one included. -/
def requireAuthority (now : ℤ) : Except HumanActionFailure Unit := do
  let row := view.reference
  require (row.action = redemption.action) (.refused .wrongAction)
  let purpose ← expect view.purpose (.refused .referencePurposeInvalid)
  requirePurpose redemption.requiredPurpose purpose
  require (row.context = redemption.context) (.refused .actorOrContextMismatch)
  require (now < row.expiresAt) (.refused .referenceExpired)
  requireD1RedemptionFreshness surroundings view redemption.action now
  require (redemption.reference = referenceValue digests redemption.key row.publicId view.proposalPublicId row.action
    row.target.proposalVersion row.target.proposalContentHash redemption.context row.expiresAt view.generation)
    (.refused .referenceIntegrity)

def decisionMaterial (key : List UInt8) (view : ReferenceView)
    (replay : Bool) : RedeemedHumanAction where
  referencePublicId := view.reference.publicId
  action := view.reference.action
  proposalPublicId := view.proposalPublicId
  proposalVersion := view.reference.target.proposalVersion
  proposalContentHash := view.reference.target.proposalContentHash
  callbackToken := computeToken digests key view.proposalPublicId view.reference.target.proposalVersion
    view.reference.target.proposalContentHash view.reference.action view.reference.expiresAt
  callbackExpiry := view.reference.expiresAt
  actorId := view.reference.context.actorId
  d1DecisionBinding := view.generation.map fun generation =>
    ⟨view.reference.publicId, generation, view.reference.context⟩
  idempotentReplay := replay

/-- The callback that redeemed a reference gets its decision again. -/
def redeemAgain (earlier : RedemptionRow) (now : ℤ) : Except HumanActionFailure RedeemedHumanAction := do
  require (earlier.callbackIdSha256 = sha256Text digests redemption.callbackId ∧
    earlier.callbackMessageId = redemption.callbackMessageId) (.refused .referenceReplayed)
  redemption.redemptionEffect view redemption.action now
  return decisionMaterial digests redemption.key view true

def redeemFirst (now : ℤ) : ReferenceOperation RedeemedHumanAction := do
  reading fun tables => require (∀ other ∈ tables.redemptions,
    other.callbackIdSha256 ≠ sha256Text digests redemption.callbackId) (.refused .referenceReplayed)
  let proposal ← raising (expect (surroundings.proposal? view.reference.target.parserOutputId)
    (.refused .proposalMissing))
  raising (requireProposal proposal view.reference.target.proposalVersion view.reference.target.proposalContentHash)
  raising (redemption.actionValidator view redemption.action)
  writing fun tables => tables.insertRedemption
    ⟨view.reference.id, sha256Text digests redemption.callbackId, redemption.callbackMessageId, now⟩
  raising (redemption.redemptionEffect view redemption.action now)
  return decisionMaterial digests redemption.key view false

def redeemView (now : ℤ) : ReferenceOperation RedeemedHumanAction :=
  match view.redemption with
  | some earlier => raising (redeemAgain digests redemption view earlier now)
  | none => redeemFirst digests surroundings redemption view now

end

def redeemHumanActionReference : ReferenceOperation RedeemedHumanAction := do
  raising (require (referenceIsWellFormed redemption.reference) (.refused .referenceInvalid))
  transaction do
    let moment ← now world
    let view ← reading fun tables =>
      expect (referenceRow surroundings tables digests redemption.reference) (.refused .referenceInvalid)
    raising (requireAuthority digests surroundings redemption view moment)
    redeemView digests surroundings redemption view moment

end

end Calls

inductive HumanActionCall where
  | issue (issuance : Issuance)
  | redeem (redemption : Redemption)

inductive HumanActionResult where
  | issued (references : List IssuedHumanActionReference) (replay : Bool)
  | redeemed (action : RedeemedHumanAction)

/-- A call with the tables of the other components that it meets. -/
structure HumanActionRequest where
  surroundings : Surroundings
  call : HumanActionCall

def performHumanAction (digests : Digests) (world : World) (request : HumanActionRequest) :
    ReferenceOperation HumanActionResult :=
  match request.call with
  | .issue issuance => (fun result => .issued result.1 result.2) <$>
      issueHumanActionReferences digests world request.surroundings issuance
  | .redeem redemption => .redeemed <$> redeemHumanActionReference digests world request.surroundings redemption

end FinanceCore.OpenclawStagingBridge
