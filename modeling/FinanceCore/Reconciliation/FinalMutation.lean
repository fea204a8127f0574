import FinanceCore.Money.CanonicalText

namespace FinanceCore.Reconciliation.FinalMutation

open Decimal Exceptions Money List

inductive Action where
  | create
  | adjust
  | blocked
deriving DecidableEq

/-- The columns that an adjustment writes as plain text. -/
inductive TextColumn where
  | currency
  | transactionDate
  | merchant
  | category
  | notes
deriving DecidableEq

/-- The numeric columns hold the number that reading them back as text gives. -/
structure Transaction where
  publicId : String
  (amount totalAmount : Option ℚ)
  texts : TextColumn → Option String

/-- The suggested amount as it arrives, the other suggested values as `str` writes them, and the names outside
the allowed set. -/
structure SuggestedFields where
  amount : Option RawMoney
  texts : TextColumn → Option (Option String)
  others : List String

structure Proposal where
  action : Action
  amount : RawMoney
  currency : Option String
  merchant : String
  transactionDate : Option String
  targetTransactionId : String
  suggestedFields : SuggestedFields
  sourceStatementRef : String

inductive BlockReason where
  | emptyIdempotencyKey
  | missingHumanConfirmation
  | unsupportedAction
  | createMissingAmount
  | createInvalidAmount
  | createMissingCurrency
  | createInvalidCurrency
  | createMissingDate
  | createMissingMerchant
  | createMissingSourceRef
  | adjustFieldNotAllowed
  | adjustNoAllowedFields
  | targetTransactionNotFound
  | targetTransactionAmbiguous
  | invalidAdjustmentAmount
  | other (code : String)

/-- Every end of the workflow that is not a finalized result; each leaves the transactions as they were. -/
inductive Unfinished where
  | blocked (reasons : List BlockReason)
  | replayed
  | raised

/-- One call with the answers it meets: the reasons of the plan, guard, execution and evidence checks, the
answer of the authorization, schema and earlier attempts, the derived identity and notes, and the audit. -/
structure WorkflowInput where
  proposal : Proposal
  (idempotencyKey humanConfirmationId : String)
  planReasons : List BlockReason
  gates : Except Unfinished Unit
  (transactionPublicId notes : String)
  audit : Except Unfinished Unit

inductive MoneyIssue where
  | amount
  | currency
deriving DecidableEq

inductive CreateMoneyError where
  | issues (found : List MoneyIssue)
  | invalidOperation

structure ValidatedMoney where
  amount : Number
  currency : Currency
  canonicalAmount : String

section

variable (context : Context)

def createAmountText (amount : Number) (currency : Currency) : Except (MoneyError Unit) String := do
  validateAmountForCurrency context amount.value currency ()
  SignPolicy.strictlyPositive.enforce amount.value ()
  canonicalMoneyStr context amount currency

def validateReconciliationCreateMoney (amount : RawMoney) (currency : Option String) :
    Except CreateMoneyError ValidatedMoney :=
  let normalizedCurrency := currency.bind fun text => (normalizeCurrency (L := Unit) text).toOption
  match (moneyDecimal amount ()).toOption, normalizedCurrency with
  | some amount, some currency =>
    match createAmountText context amount currency with
    | .ok canonicalAmount => .ok ⟨amount, currency, canonicalAmount⟩
    | .error .invalidOperation => .error .invalidOperation
    | .error _ => .error (.issues [.amount])
  | some amount, none => .error (.issues (if 0 < amount.value then [.currency] else [.amount, .currency]))
  | none, some _ => .error (.issues [.amount])
  | none, none => .error (.issues [.amount, .currency])

def reasonWhen (condition : Prop) [Decidable condition] (reason : BlockReason) : List BlockReason :=
  if condition then [reason] else []

def SuggestedFields.NoneAllowed (suggested : SuggestedFields) : Prop :=
  suggested.amount = none ∧
    ∀ column ∈ [.currency, .transactionDate, .merchant, .category, .notes], suggested.texts column = none
deriving Decidable

/-- The field errors are none exactly for allowed names, of which there is at least one. -/
def SuggestedFields.Refused (suggested : SuggestedFields) : Prop :=
  suggested.others ≠ [] ∨ suggested.NoneAllowed
deriving Decidable

def createReasons (proposal : Proposal) : Except Unfinished (List BlockReason) := do
  let issues ← match validateReconciliationCreateMoney context proposal.amount proposal.currency with
    | .ok _ => pure []
    | .error (.issues found) => pure found
    | .error .invalidOperation => throw .raised
  return (if proposal.amount = .missing then [.createMissingAmount]
      else reasonWhen (.amount ∈ issues) .createInvalidAmount) ++
    (if proposal.currency.getD "" = "" then [.createMissingCurrency]
      else reasonWhen (.currency ∈ issues) .createInvalidCurrency) ++
    reasonWhen (proposal.transactionDate = none) .createMissingDate ++
    reasonWhen (proposal.merchant = "") .createMissingMerchant ++
    reasonWhen (proposal.sourceStatementRef = "") .createMissingSourceRef

def validatePreconditions (input : WorkflowInput) : Except Unfinished (List BlockReason) := do
  let suggested := input.proposal.suggestedFields
  let reasons ← match input.proposal.action with
    | .create => createReasons context input.proposal
    | .adjust => pure (reasonWhen suggested.Refused .adjustFieldNotAllowed ++
        reasonWhen suggested.NoneAllowed .adjustNoAllowedFields)
    | .blocked => pure []
  return input.planReasons ++ reasons

end

variable (context : Context) (held : String → Option ℚ)

/-- The inserted row is read back and has to hold the validated amount. -/
def executeCreate (input : WorkflowInput) (rows : List Transaction) : Except Unfinished (List Transaction) := do
  let proposal := input.proposal
  let money ← (validateReconciliationCreateMoney context proposal.amount proposal.currency).mapError fun _ => .raised
  require (∀ row ∈ rows, row.publicId ≠ input.transactionPublicId) .raised
  let stored := held money.canonicalAmount
  require (stored = some money.amount.value) .raised
  let texts : TextColumn → Option String
    | .currency => some money.currency.code
    | .transactionDate => some (proposal.transactionDate.getD "")
    | .merchant => some proposal.merchant
    | .category => none
    | .notes => some input.notes
  return rows ++ [⟨input.transactionPublicId, stored, stored, texts⟩]

/-- The adjusted amount is checked against the currency that the row had before. -/
def adjustmentAmount (value : RawMoney) (targetCurrency : String) : Except (MoneyError Unit) Number := do
  let amount ← moneyDecimal value ()
  let currency ← normalizeCurrency targetCurrency
  validateAmountForCurrency context amount.value currency ()
  return amount

section

variable (suggested : SuggestedFields)

section

variable (row : Transaction)

def adjustRow : Except Unfinished Transaction := do
  let texts column := (suggested.texts column).getD (row.texts column)
  match suggested.amount with
  | none => return { row with texts }
  | some value =>
    let targetCurrency := (row.texts .currency).getD ""
    require (targetCurrency ≠ "") (.blocked [.createMissingCurrency])
    let amount ← (adjustmentAmount context value targetCurrency).mapError fun
      | .invalidOperation => .raised
      | _ => .blocked [.invalidAdjustmentAmount]
    let written ← expect (canonicalDecimalStr amount) (.blocked [.invalidAdjustmentAmount])
    return { row with amount := held written, totalAmount := held written, texts }

def executeAdjust (proposal : Proposal) (rows : List Transaction) : Except Unfinished (List Transaction) := do
  let targetId := proposal.targetTransactionId
  require (targetId ≠ "") .raised
  require (¬ proposal.suggestedFields.Refused) .raised
  match rows.filter fun row => row.publicId = targetId with
  | [] => throw (.blocked [.targetTransactionNotFound])
  | [row] =>
    let updated ← adjustRow context held proposal.suggestedFields row
    require (updated.texts .transactionDate ≠ none) .raised
    return rows.map fun stored => if stored.publicId = targetId then updated else stored
  | _ => throw (.blocked [.targetTransactionAmbiguous])

def executeGuardedFinalMutationWorkflow (input : WorkflowInput) (rows : List Transaction) :
    Except Unfinished (List Transaction) := do
  require (input.idempotencyKey ≠ "") (.blocked [.emptyIdempotencyKey])
  require (input.humanConfirmationId ≠ "") (.blocked [.missingHumanConfirmation])
  require (input.proposal.action ≠ .blocked) (.blocked [.unsupportedAction])
  let reasons ← validatePreconditions context input
  require (reasons.isEmpty) (.blocked reasons)
  input.gates
  let rows ← match input.proposal.action with
    | .create => executeCreate context held input rows
    | .adjust => executeAdjust context held input.proposal rows
    | .blocked => throw .raised
  input.audit
  return rows

/-- Money is valid when it is positive and has no more decimals than its supported currency. -/
def ValidMoney (amount : Option ℚ) (text : Option String) : Prop :=
  ∃ value ∈ amount, ∃ code ∈ text, ∃ currency, normalizeCurrency (L := Unit) code = .ok currency ∧
    0 < value ∧ AtScale (minorUnits currency) value

def Transaction.Valid : Prop :=
  row.totalAmount = row.amount ∧ ValidMoney row.amount (row.texts .currency)

/-- The amount column gives back the suggested amount as it was written. -/
def SuggestedFields.ReadBack : Prop :=
  ∀ value ∈ suggested.amount, ∀ number text, moneyDecimal value () = .ok number →
    canonicalDecimalStr number = some text → held text = some number.value

/-- A suggested currency is supported and has enough decimals for the amount. -/
def SuggestedFields.CurrencyFits (amount : ℚ) : Prop :=
  ∀ text ∈ suggested.texts .currency, ∃ code ∈ text, ∃ currency,
    normalizeCurrency (L := Unit) code = .ok currency ∧ AtScale (minorUnits currency) amount

/-- What the code leaves unchecked: the sign of a suggested amount, and whether a suggested currency fits the
amount that the row then has. -/
def SuggestedFields.KeepsMoney : Prop :=
  match suggested.amount with
  | none => ∀ stored ∈ row.amount, suggested.CurrencyFits stored
  | some value => ∀ number, moneyDecimal value () = .ok number →
      0 < number.value ∧ suggested.CurrencyFits number.value

end

end

variable {context held} {input : WorkflowInput} {rows after : List Transaction}

theorem validateReconciliationCreateMoney_ok {raw : RawMoney} {text : Option String}
    {money : ValidatedMoney}
    (done : validateReconciliationCreateMoney context raw text = .ok money) :
    0 < money.amount.value ∧ AtScale (minorUnits money.currency) money.amount.value := by
  unfold validateReconciliationCreateMoney at done
  dsimp only at done
  split at done
  · split at done
    case h_1 written =>
      cases done
      simp only [createAmountText, bind_ok, validateAmountForCurrency_ok, SignPolicy.enforce, require_ok] at written
      obtain ⟨_, scaled, _, positive, _⟩ := written
      exact ⟨positive, scaled.atScale⟩
    all_goals cases done
  all_goals cases done

theorem executeCreate_valid (valid : ∀ row ∈ rows, row.Valid)
    (done : executeCreate context held input rows = .ok after) : ∀ row ∈ after, row.Valid := by
  simp only [executeCreate, bind_ok, mapError_ok, require_ok, pure_ok] at done
  obtain ⟨money, validated, _, _, _, stored, rfl⟩ := done
  obtain ⟨positive, scaled⟩ := validateReconciliationCreateMoney_ok validated
  intro row member
  obtain member | rfl := mem_append.mp member |>.imp_right mem_singleton.mp
  · exact valid row member
  · exact ⟨rfl, _, stored, _, rfl, _, normalizeCurrency_code money.currency, positive, scaled⟩

/-- Money that fits the currency of a row is valid after an adjustment when it is positive and fits a suggested
currency as well. -/
theorem validMoney_adjusted_iff {suggested : SuggestedFields} {current : Option String}
    {code : String} {currency : Currency} {amount : ℚ} (named : code ∈ current)
    (supported : normalizeCurrency (L := Unit) code = .ok currency)
    (scaled : AtScale (minorUnits currency) amount) :
    ValidMoney (some amount) ((suggested.texts .currency).getD current) ↔
      0 < amount ∧ suggested.CurrencyFits amount := by
  unfold ValidMoney SuggestedFields.CurrencyFits
  cases suggested.texts .currency with
  | none =>
    constructor
    · rintro ⟨_, ⟨⟩, _, _, _, _, positive, _⟩
      exact ⟨positive, by simp⟩
    · rintro ⟨positive, _⟩
      exact ⟨amount, rfl, code, named, currency, supported, positive, scaled⟩
  | some text =>
    constructor
    · rintro ⟨_, ⟨⟩, code, named, currency, supported, positive, scaled⟩
      exact ⟨positive, by rintro _ ⟨⟩; exact ⟨code, named, currency, supported, scaled⟩⟩
    · rintro ⟨positive, fits⟩
      obtain ⟨code, named, currency, supported, scaled⟩ := fits text rfl
      exact ⟨amount, rfl, code, named, currency, supported, positive, scaled⟩

/-- The checked amount fits the old currency, so an adjusted row is valid exactly when the unchecked part is. -/
theorem adjustRow_valid_iff {suggested : SuggestedFields} {row updated : Transaction}
    (valid : row.Valid)
    (kept : suggested.ReadBack held) (done : adjustRow context held suggested row = .ok updated) :
    updated.Valid ↔ suggested.KeepsMoney row := by
  obtain ⟨same, stored, present, code, named, currency, supported, positive, scaled⟩ := valid
  unfold adjustRow at done
  unfold SuggestedFields.KeepsMoney
  cases chosen : suggested.amount with
  | none =>
    simp only [chosen, pure_ok] at done
    subst done
    simp only [Transaction.Valid, same, Option.mem_def.mp present, Option.mem_some_iff, forall_eq', true_and]
    rw [validMoney_adjusted_iff named supported scaled, and_iff_right positive]
  | some value =>
    simp only [chosen, adjustmentAmount, bind_ok, mapError_ok, require_ok, expect_ok, pure_ok,
      validateAmountForCurrency_ok] at done
    obtain ⟨_, _, amount, ⟨_, read, used, found, _, fits, rfl⟩, written, text, rfl⟩ := done
    rw [Option.mem_def.mp named, Option.getD_some, supported] at found
    obtain rfl := Except.ok.inj found
    simp only [Transaction.Valid, kept value chosen _ _ read text, read, Except.ok.injEq, forall_eq', true_and]
    exact validMoney_adjusted_iff named supported fits.atScale

theorem executeAdjust_valid_iff {proposal : Proposal} (valid : ∀ row ∈ rows, row.Valid)
    (kept : proposal.suggestedFields.ReadBack held) (done : executeAdjust context held proposal rows = .ok after) :
    (∀ row ∈ after, row.Valid) ↔ ∀ row ∈ rows, row.publicId = proposal.targetTransactionId →
      proposal.suggestedFields.KeepsMoney row := by
  simp only [executeAdjust, bind_ok, require_ok] at done
  obtain ⟨_, _, _, _, done⟩ := done
  split at done
  · cases done
  · rename_i row found
    have target (stored : Transaction) :
        stored ∈ rows ∧ stored.publicId = proposal.targetTransactionId ↔ stored = row := by
      rw [← mem_singleton (b := row), ← found, mem_filter, decide_eq_true_iff]
    obtain ⟨member, named⟩ := (target row).mpr rfl
    simp only [bind_ok, require_ok, pure_ok] at done
    obtain ⟨updated, adjusted, _, _, rfl⟩ := done
    have keeps := adjustRow_valid_iff (valid row member) kept adjusted
    rw [forall_mem_map]
    constructor
    · intro final stored present identity
      obtain rfl := (target stored).mp ⟨present, identity⟩
      have valid := final stored member
      rwa [if_pos named, keeps] at valid
    · intro final stored present
      split_ifs with identity
      · obtain rfl := (target stored).mp ⟨present, identity⟩
        exact keeps.mpr (final stored member named)
      · exact valid stored present
  · cases done

/-- Finalized results keep valid money, for an adjustment exactly when a suggested amount is positive and a
suggested currency is supported and fits the amount. -/
theorem finalized_keeps_valid_money_iff (valid : ∀ row ∈ rows, row.Valid)
    (kept : input.proposal.suggestedFields.ReadBack held)
    (done : executeGuardedFinalMutationWorkflow context held input rows = .ok after) :
    (∀ row ∈ after, row.Valid) ↔ (input.proposal.action = .adjust → ∀ row ∈ rows,
      row.publicId = input.proposal.targetTransactionId → input.proposal.suggestedFields.KeepsMoney row) := by
  simp only [executeGuardedFinalMutationWorkflow, bind_ok] at done
  obtain ⟨_, _, _, _, _, _, _, _, _, _, _, _, done⟩ := done
  cases action : input.proposal.action with
  | create =>
    simp only [action, bind_ok, pure_ok] at done
    obtain ⟨_, executed, _, _, rfl⟩ := done
    simpa using executeCreate_valid valid executed
  | adjust =>
    simp only [action, bind_ok, pure_ok] at done
    obtain ⟨_, executed, _, _, rfl⟩ := done
    simpa using executeAdjust_valid_iff valid kept executed
  | blocked =>
    rw [action] at done
    cases done

/-- A row of the given amount and currency. -/
def sampleRow (amount : ℚ) (currency : Currency) : Transaction where
  publicId := "txn"
  amount := some amount
  totalAmount := some amount
  texts column := some (if column = .currency then currency.code else "")

/-- A confirmed adjustment of the sample row to the given amount and currency. -/
def sampleInput (amount : Option RawMoney) (currency : Currency) : WorkflowInput :=
  ⟨⟨.adjust, .missing, none, "", none, "txn",
    ⟨amount, fun column => if column = .currency then some (some currency.code) else none, []⟩, ""⟩,
    "key", "human", [], .ok (), "", "", .ok ()⟩

theorem sampleRow_valid_iff (amount : ℚ) (currency : Currency) :
    (sampleRow amount currency).Valid ↔ 0 < amount ∧ AtScale (minorUnits currency) amount := by
  simp [Transaction.Valid, ValidMoney, sampleRow, normalizeCurrency_code]

theorem sampleRow_sgd_valid : ∀ row ∈ [sampleRow (21 / 2) .sgd], row.Valid := by
  rw [forall_mem_singleton, sampleRow_valid_iff]
  exact ⟨by norm_num, 1050, by norm_num [minorUnits]⟩

theorem sampleInput_finalized {held : String → Option ℚ} {amount : Option RawMoney}
    {currency : Currency} {final : ℚ}
    (adjusted : adjustRow .standard held (sampleInput amount currency).proposal.suggestedFields
      (sampleRow (21 / 2) .sgd) = .ok (sampleRow final currency)) :
    executeGuardedFinalMutationWorkflow .standard held (sampleInput amount currency) [sampleRow (21 / 2) .sgd] =
      .ok [sampleRow final currency] := by
  simp only [executeGuardedFinalMutationWorkflow, validatePreconditions, executeAdjust, reasonWhen,
    SuggestedFields.Refused, SuggestedFields.NoneAllowed]
  simpa [sampleInput, sampleRow] using adjusted

/-- A column that gives 12.5 back. -/
def sampleColumn (text : String) : Option ℚ := if text = "12.5" then some (25 / 2) else none

theorem sampleAmount_read : moneyDecimal (.text "12.5") () = .ok ⟨false, 125, -1⟩ := by decide

theorem sampleAmount_value : (Number.mk false 125 (-1)).value = 25 / 2 := by decide +kernel

theorem sampleAmount_written : canonicalDecimalStr ⟨false, 125, -1⟩ = some "12.5" := by decide +kernel

theorem sampleInput_repriced :
    executeGuardedFinalMutationWorkflow .standard sampleColumn (sampleInput (some (.text "12.5")) .usd)
      [sampleRow (21 / 2) .sgd] = .ok [sampleRow (25 / 2) .usd] := by
  have amount : adjustmentAmount .standard (.text "12.5") "SGD" = .ok ⟨false, 125, -1⟩ := by decide +kernel
  apply sampleInput_finalized
  simp [adjustRow, sampleInput, sampleRow, Currency.code, amount, sampleAmount_written, sampleColumn]
  funext column
  split_ifs <;> rfl

theorem finalized_keeps_valid_money_usd :
    ∃ after, executeGuardedFinalMutationWorkflow .standard sampleColumn (sampleInput (some (.text "12.5")) .usd)
      [sampleRow (21 / 2) .sgd] = .ok after ∧ ∀ row ∈ after, row.Valid := by
  refine ⟨_, sampleInput_repriced, ?_⟩
  refine (finalized_keeps_valid_money_iff sampleRow_sgd_valid ?_ sampleInput_repriced).mpr ?_
  · rintro _ ⟨⟩ number text read written
    obtain rfl := Except.ok.inj (read.symm.trans sampleAmount_read)
    rw [Option.some.inj (written.symm.trans sampleAmount_written), sampleAmount_value]
    rfl
  · intro _ row _ _ number read
    obtain rfl := Except.ok.inj (read.symm.trans sampleAmount_read)
    rw [sampleAmount_value]
    refine ⟨by norm_num, ?_⟩
    rintro _ ⟨⟩
    exact ⟨_, rfl, .usd, normalizeCurrency_code .usd, 1250, by norm_num [minorUnits]⟩

/-- An adjustment of the currency alone turns 10.50 SGD into 10.50 JPY. -/
theorem finalized_yen_with_decimals :
    (∀ row ∈ [sampleRow (21 / 2) .sgd], row.Valid) ∧
      executeGuardedFinalMutationWorkflow .standard sampleColumn (sampleInput none .jpy) [sampleRow (21 / 2) .sgd] =
        .ok [sampleRow (21 / 2) .jpy] ∧ ¬ (sampleRow (21 / 2) .jpy).Valid := by
  refine ⟨sampleRow_sgd_valid, sampleInput_finalized ?_, ?_⟩
  · simp [adjustRow, sampleInput, sampleRow]
    funext column
    split_ifs <;> rfl
  · rw [sampleRow_valid_iff]
    rintro ⟨-, coefficient, same⟩
    have doubled : (21 : ℤ) = 2 * coefficient := by
      norm_num [minorUnits] at same
      exact_mod_cast show (21 : ℚ) = 2 * coefficient by linarith
    omega

end FinanceCore.Reconciliation.FinalMutation
