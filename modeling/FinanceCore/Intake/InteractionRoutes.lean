import FinanceCore.GuidedEdit.Sessions
import FinanceCore.HumanDrafts.CardFields

namespace FinanceCore.Intake

open Text Unicode HumanDrafts GuidedEdit

def CardField.name : CardField → String
  | .amount => "amount"
  | .currency => "currency"
  | .transactionDate => "transaction_date"
  | .merchant => "merchant"
  | .description => "description"
  | .category => "category"

def fieldAliases : List (String × CardField) :=
  [("amount", .amount), ("金额", .amount), ("currency", .currency), ("币种", .currency),
    ("transaction_date", .transactionDate), ("date", .transactionDate), ("日期", .transactionDate),
    ("merchant", .merchant), ("商户", .merchant), ("description", .description), ("描述", .description),
    ("category", .category), ("分类", .category)]

/-- The literal words of the card label pattern; the pattern also knows a card reference with any space inside. -/
def cardLabels : List String :=
  ["资料卡编号", "金额", "币种", "日期", "商户", "描述", "分类", "amount", "currency", "transaction_date", "date",
    "merchant", "description", "category"]

def fullWidthEquals : Char := '＝'

def completionText : List Char := ['完', '成']

/-- The letters that a pattern letter also stands for when case is ignored, besides those with its lower case. -/
def extraCases (char : Char) : List Char :=
  if char = 'i' then [Char.ofNat 0x131] else if char = 's' then [Char.ofNat 0x17F] else []

section Shape

variable (database : CharacterDatabase)

def caseMatches (pattern char : Char) : Bool :=
  database.lowercase char == database.lowercase pattern ||
    (extraCases (database.lowercase pattern)).contains (database.lowercase char)

/-- What follows a word at the start of a text, when case is ignored. -/
def matchWord : List Char → List Char → Option (List Char)
  | [], text => some text
  | _ :: _, [] => none
  | pattern :: word, char :: text => if caseMatches database pattern char then matchWord word text else none

/-- A label ends at the end of the line, before a space or before a colon. -/
def endsLabel : List Char → Bool
  | [] => true
  | char :: _ => isSpace char || char == ':' || char == fullWidthColon

def matchCardReference (line : List Char) : Option (List Char) :=
  (matchWord database "card".toList line).bind fun rest => matchWord database "ref".toList (rest.dropWhile isSpace)

def cardLabelStart (line : List Char) : Bool :=
  (cardLabels.any fun label => (matchWord database label.toList line).any endsLabel) ||
    (matchCardReference database line).any endsLabel

def replaceReturnFeeds : List Char → List Char
  | [] => []
  | '\r' :: '\n' :: rest => '\n' :: replaceReturnFeeds rest
  | char :: rest => char :: replaceReturnFeeds rest

def isControlText (char : Char) : Bool :=
  let category := database.category char
  !(['\r', '\n', '\t'].contains char) && (category.isOther || category == .Zl || category == .Zp)

def normalizedControlText (text : String) : Option (List Char) :=
  if text.toList.any (isControlText database) then none
  else some ((replaceReturnFeeds text.toList).map fun char => if char = '\r' then '\n' else char)

inductive GuidedShape where
  | invalid
  | complete
  | update (field : CardField) (value : String)
deriving DecidableEq

/-- A guided value has no control, no separator and no space other than the ordinary one. -/
def isGuidedValueChar (char : Char) : Bool :=
  let category := database.category char
  !(category.isOther || category == .Zl || category == .Zp || (category == .Zs && char != ' '))

section

variable (normalized : List Char)

def guidedShape : GuidedShape :=
  if '\n' ∈ normalized then .invalid
  else
    let value := stripBlanks normalized
    if value = completionText then .complete
    else if value.count '=' ≠ 1 ∨ fullWidthEquals ∈ value then .invalid
    else
      let name := stripBlanks (value.takeWhile (· ≠ '='))
      let fieldValue := String.ofList (stripBlanks ((value.dropWhile (· ≠ '=')).drop 1))
      match fieldAliases.lookup (String.ofList (database.lower name)) with
      | none => .invalid
      | some field =>
        if fieldValue = "" ∨ 1024 < fieldValue.utf8ByteSize then .invalid
        else if fieldValue.toList.all (isGuidedValueChar database) then .update field fieldValue
        else .invalid

inductive ControlShape where
  | invalid
  | ambiguous (normalized : List Char)
  | card (normalized : List Char)
  | guided (normalized : List Char)
  | ordinary (normalized : List Char)

def cardMarker : List Char := "d1card_".toList

/-- The text contains a card marker in any case. -/
def hasCardMarker : Bool :=
  (database.casefold normalized).tails.any cardMarker.isPrefixOf

def cardCandidate : Bool :=
  hasCardMarker database normalized ||
    (normalized.splitOn '\n').any fun line => cardLabelStart database (stripBlanks line)

def guidedCandidate : Bool :=
  normalized.contains '=' || normalized.contains fullWidthEquals ||
    (normalized.splitOn '\n').any fun line => stripBlanks line == completionText

end

def classifyControlTextShape (text : String) : ControlShape :=
  match normalizedControlText database text with
  | none => .invalid
  | some normalized =>
    if cardCandidate database normalized && guidedCandidate normalized then .ambiguous normalized
    else if cardCandidate database normalized then .card normalized
    else if guidedCandidate normalized then .guided normalized
    else .ordinary normalized

end Shape

/-- The authenticated source of a message. -/
structure InteractionContext where
  actorId : String
  chat : ChatContext

inductive RefusalCode where
  | invalidControlText
  | ambiguousGuidedHistory
  | historicalGuidedMismatch
  | ambiguousControl
  | invalidWholeCard
  | invalidGuidedControl
  | noGuidedSession
deriving DecidableEq

inductive InteractionRoute where
  | controlRefused (refusalCode : RefusalCode) (guidedSessionPublicId : Option String)
  | guidedComplete (guidedSessionPublicId operationKey : String)
  | guidedUpdate (guidedSessionPublicId operationKey d1CompatibilityOperationPublicId fieldName fieldValueJson : String)
  | wholeCard (cardGenerationPublicId operationKey : String)
  | initialIntake
deriving DecidableEq

section Digests

variable (sha256Hex : ByteArray → String)

def bigEndian (number : ℕ) : List UInt8 :=
  [number / 2 ^ 24, number / 2 ^ 16, number / 2 ^ 8, number].map UInt8.ofNat

/-- The digest of a domain and of fields with their lengths in front. -/
def framedDigest (domain : String) (fields : List String) : String :=
  let framed (field : String) : List UInt8 := bigEndian field.utf8ByteSize ++ field.toUTF8.toList
  sha256Hex ⟨(domain.toUTF8.toList ++ [0] ++ bigEndian fields.length ++ fields.flatMap framed).toArray⟩

def guidedD1OperationId (sessionId : String) (messageId : ℤ) : String :=
  "d1op_" ++ ((sha256Hex ("\x00".intercalate
    ["d1-guided-edit-compatibility-v1", sessionId, toString messageId]).toUTF8).take 32).toString

end Digests

section History

variable (tables : Tables) (context : InteractionContext)

def ownedBy (session : Session) : Bool :=
  session.authenticatedActorId = context.actorId && session.context = context.chat

/-- The sessions of the chat that have recorded a message. -/
def historicalGuidedSessions (messageId : ℤ) : List ℕ :=
  (tables.sessions.entries.filter fun entry =>
    ownedBy context entry.2 && (entry.2.completedMessageId = some messageId ||
      (tables.eventsOf entry.1).any fun event => event.messageId = some messageId)).map Prod.fst

def activeGuidedSession (now : ℤ) : Option ℕ :=
  (tables.sessions.entries.find? fun entry =>
    ownedBy context entry.2 && entry.2.status = .active && now < entry.2.expiresAt).map Prod.fst

variable (database : CharacterDatabase)

/-- An earlier request is matched with its original, broader grammar. -/
def historicalGuidedMatches (normalized : List Char) (field value : String) : Bool :=
  let name := normalized.takeWhile (· ≠ '=')
  let tail := (normalized.dropWhile (· ≠ '=')).drop 1
  normalized.contains '=' &&
    ((fieldAliases.lookup (String.ofList (database.lower (stripChars name)))).map CardField.name = some field) &&
    (tail = value.toList || stripChars tail = value.toList)

end History

section Classify

variable (database : CharacterDatabase) (sha256Hex : ByteArray → String) (sessionPublicId : ℕ → String)
  (tables : Tables)

def completeKey (session : String) (messageId : ℤ) : String :=
  "bridge-guided-edit-complete:" ++ session ++ ":" ++ toString messageId

def updateKey (session : String) (messageId : ℤ) : String :=
  "bridge-guided-edit-update:" ++ session ++ ":" ++ toString messageId

def historicalGuidedRoute (sessionId : ℕ) (messageId : ℤ)
    (normalized : List Char) : InteractionRoute :=
  let session := sessionPublicId sessionId
  let refusal := InteractionRoute.controlRefused .historicalGuidedMismatch (some session)
  let recorded := (tables.eventsOf sessionId).filter fun event => event.messageId = some messageId
  match recorded.filter fun event => event.eventType = .updateRequested || event.eventType = .completed with
  | [event] =>
    let row := tables.sessions.get? sessionId
    if event.eventType = .completed then
      if stripChars normalized ≠ completionText ∨ row.bind Session.completedMessageId ≠ some messageId then refusal
      else .guidedComplete session (completeKey session messageId)
    else
      match event.operationKey, event.fieldName, event.fieldValueJson with
      | some originalKey, some originalField, some originalJson =>
        match Json.read some originalJson.toList with
        | some (.text originalValue) =>
          let settled := recorded.filter fun event =>
            event.eventType = .updateApplied || event.eventType = .updateRefused
          let pendingMatches := row.bind Session.pending = some ⟨messageId, originalKey, originalField, originalJson⟩
          let settledMatches := settled.map (fun event =>
            (event.operationKey, event.fieldName, event.fieldValueJson)) =
              [(some originalKey, some originalField, some originalJson)]
          if originalKey = "" ∨
              historicalGuidedMatches database normalized originalField originalValue = false then refusal
          else if pendingMatches ∨ settledMatches then
            .guidedUpdate session (updateKey session messageId) (guidedD1OperationId sha256Hex session messageId)
              originalField originalJson
          else refusal
        | _ => refusal
      | _, _, _ => refusal
  | _ => refusal

/-- The route of a new message in a chat with an active session. -/
def guidedRoute (session : String) (messageId : ℤ) (normalized : List Char) : InteractionRoute :=
  match guidedShape database normalized with
  | .complete => .guidedComplete session (completeKey session messageId)
  | .update field value =>
    .guidedUpdate session (updateKey session messageId) (guidedD1OperationId sha256Hex session messageId)
      (CardField.name field) (String.ofList (Json.renderString false value))
  | .invalid => .controlRefused .invalidGuidedControl (some session)

section

variable (context : InteractionContext)

def cardRoute (messageId : ℤ) (normalized : List Char) : InteractionRoute :=
  match parseHumanDraftCardStructureForRouting database (String.ofList normalized) with
  | none => .controlRefused .invalidWholeCard none
  | some card =>
    .wholeCard card ("d1op_" ++ ((framedDigest sha256Hex "d1-plugin-card-operation-v1"
      [context.chat.accountId, context.chat.conversationId, context.chat.bindingId, toString messageId,
        card]).take 32).toString)

/-- A message that the chat has recorded follows its record. -/
def historyOr (messageId : ℤ) (normalized : List Char) (fresh : InteractionRoute) : InteractionRoute :=
  match historicalGuidedSessions tables context messageId with
  | [] => fresh
  | [sessionId] => historicalGuidedRoute database sha256Hex sessionPublicId tables sessionId messageId normalized
  | _ => .controlRefused .ambiguousGuidedHistory none

/-- An unexpired active session owns a message that is not a card. -/
def sessionOr (messageId now : ℤ) (normalized : List Char)
    (without : InteractionRoute) : InteractionRoute :=
  match activeGuidedSession tables context now with
  | some sessionId => guidedRoute database sha256Hex (sessionPublicId sessionId) messageId normalized
  | none => without

end

def classifyInteraction (text : String) (context : InteractionContext)
    (messageId now : ℤ) : InteractionRoute :=
  let historyOr := historyOr database sha256Hex sessionPublicId tables context messageId
  let sessionOr := sessionOr database sha256Hex sessionPublicId tables context messageId now
  match classifyControlTextShape database text with
  | .invalid => .controlRefused .invalidControlText none
  | .ambiguous normalized => historyOr normalized (.controlRefused .ambiguousControl none)
  | .card normalized => historyOr normalized (cardRoute database sha256Hex context messageId normalized)
  | .guided normalized => historyOr normalized (sessionOr normalized (.controlRefused .noGuidedSession none))
  | .ordinary normalized => historyOr normalized (sessionOr normalized .initialIntake)

end Classify

end FinanceCore.Intake
