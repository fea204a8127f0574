import FinanceCore.Foundation.Dict
import FinanceCore.Foundation.Loop
import FinanceCore.Money
import FinanceCore.Settlement.Entries

namespace FinanceCore.Settlement

open Decimal Exceptions Matching Money Text

/-- The fields that the money contract checks here. -/
inductive RuntimeLabel where
  | balance (participant : String)
  | obligation (debtor creditor : String)
deriving DecidableEq

inductive RuntimeError where
  | participantsRequired
  | duplicateParticipants (duplicates : List String)
  | currencyRequired
  | sourceTypeRequired
  | sourceIdRequired
  | missingBalance (participant : String)
  | unknownBalance (participant : String)
  | floatBalance (participant : String)
  | balanceType (participant : String)
  | money (error : MoneyError RuntimeLabel)
  | unbalanced (total : ℚ)
  | obligationIdRequired
  | creditorIdRequired
  | debtorIdRequired
  | selfObligation (participant : String)
  | amountNotPositive (amount : ℚ)
  | diverged
deriving DecidableEq

/-- A settlement obligation cannot be built without its parties, a positive amount and its source. -/
structure SettlementObligation where
  (obligationId creditorId debtorId : String)
  amount : ℚ
  (currency sourceType sourceId : String)
  identified : obligationId ≠ ""
  creditorNamed : creditorId ≠ ""
  debtorNamed : debtorId ≠ ""
  distinct : creditorId ≠ debtorId
  positive : 0 < amount
  currencyNamed : currency ≠ ""
  sourceTyped : sourceType ≠ ""
  sourceNamed : sourceId ≠ ""
deriving DecidableEq

section

variable (context : Context)

/-- The checks of the obligation record run in the order of its fields. -/
def SettlementObligation.build (unit : Currency)
    (obligationId creditorId debtorId : String) (amount : ℚ)
    (currency sourceType sourceId : String) :
    Except RuntimeError SettlementObligation :=
  if identified : obligationId ≠ "" then
    if creditorNamed : creditorId ≠ "" then
      if debtorNamed : debtorId ≠ "" then
        if distinct : creditorId ≠ debtorId then
          if positive : 0 < amount then do
            (validateAmountForCurrency context amount unit
              (RuntimeLabel.obligation debtorId creditorId)).mapError RuntimeError.money
            if currencyNamed : currency ≠ "" then
              if sourceTyped : sourceType ≠ "" then
                if sourceNamed : sourceId ≠ "" then
                  return { obligationId, creditorId, debtorId, amount, currency, sourceType, sourceId,
                           identified, creditorNamed, debtorNamed, distinct, positive, currencyNamed,
                           sourceTyped, sourceNamed }
                else .error .sourceIdRequired
              else .error .sourceTypeRequired
            else .error .currencyRequired
          else .error (.amountNotPositive amount)
        else .error (.selfObligation debtorId)
      else .error .debtorIdRequired
    else .error .creditorIdRequired
  else .error .obligationIdRequired

section

variable (participants : List String)

/-- One balance must be a finite decimal at the scale of the currency. -/
def validateBalance (currency participant : String)
    (balance : RawMoney) : Except RuntimeError ℚ := do
  require (participant ∈ participants) (.unknownBalance participant)
  match balance with
  | .decimal _ =>
    let amount ← (moneyDecimal balance (RuntimeLabel.balance participant)).mapError RuntimeError.money
    let unit ← (normalizeCurrency currency).mapError RuntimeError.money
    (validateAmountForCurrency context amount.value unit
      (RuntimeLabel.balance participant)).mapError RuntimeError.money
    return amount.value
  | .float => .error (.floatBalance participant)
  | _ => .error (.balanceType participant)

/-- The input checks return the balances by value. -/
def validateInputs (balances : Dict String RawMoney)
    (currency sourceType sourceId : String) : Except RuntimeError (Dict String ℚ) := do
  require (participants ≠ []) .participantsRequired
  require participants.Nodup
    (.duplicateParticipants (participants.filter fun participant => 1 < participants.count participant))
  require (currency ≠ "") .currencyRequired
  require (sourceType ≠ "") .sourceTypeRequired
  require (sourceId ≠ "") .sourceIdRequired
  forM participants fun participant =>
    require (participant ∈ balances.keys) (.missingBalance participant)
  balances.mapM fun participant balance => validateBalance context participants currency participant balance

def validateBalanceZeroSum (unit : Currency) (balances : Dict String ℚ) : Except RuntimeError Unit := do
  let total ← (quantizeForCurrency context (context.sumFrom 0 balances.values) unit).mapError
    RuntimeError.money
  require (total = 0) (.unbalanced total)

/-- The balance of a participant is zero when the map does not list it. -/
def balanceOf (balances : Dict String ℚ) (participant : String) : ℚ :=
  (balances.get? participant).getD 0

/-- The sorted creditors and debtors. -/
def buildBalanceEntries (balances : Dict String ℚ) : List BalanceEntry × List BalanceEntry :=
  (sortedCreditors context (balanceOf balances) participants,
   sortedDebtors context (balanceOf balances) participants)

end

end

def hexDigit (digit : ℕ) : Char := ("0123456789abcdef".toList.getD digit '0')

/-- The last hexadecimal places of a number. -/
def fixedHex : ℕ → ℕ → List Char
  | 0, _ => []
  | places + 1, number => fixedHex places (number / 16) ++ [hexDigit (number % 16)]

/-- The text of an identifier groups its 32 hexadecimal digits. -/
def uuidText (value : BitVec 128) : String :=
  let digits := fixedHex 32 value.toNat
  String.ofList (digits.take 8 ++ '-' :: ((digits.drop 8).take 4 ++ '-' :: ((digits.drop 12).take 4 ++
    '-' :: ((digits.drop 16).take 4 ++ '-' :: digits.drop 20))))

/-- Equal sources and positions name equal obligations; `uuid5` hashes a name inside its namespace. -/
def makeObligationId (uuid5 : String → BitVec 128) (sourceType sourceId : String)
    (index : ℕ) : String :=
  uuidText (uuid5 (sourceType ++ ":" ++ sourceId ++ ":" ++ String.ofList (natDigits index)))

/-- The pointers of the walk are the entries that remain, with their open amounts. -/
structure Walk where
  (creditors debtors : List BalanceEntry)
  obligations : List SettlementObligation

def Walk.done (walk : Walk) : Bool := walk.creditors.isEmpty || walk.debtors.isEmpty

section Generate

variable (uuid5 : String → BitVec 128) (context : Context) (unit : Currency) (currency sourceType sourceId : String)

def roundForCurrency (value : ℚ) : Except RuntimeError ℚ :=
  (quantizeForCurrency context value unit).mapError RuntimeError.money

/-- One pass of the loop settles the first creditor with the first debtor. -/
def Walk.pass (walk : Walk) : Except RuntimeError Walk :=
  match walk.creditors, walk.debtors with
  | (creditor, due) :: creditors, (debtor, debt) :: debtors => do
    let settled ← roundForCurrency context unit (min due debt)
    let obligations ←
      if 0 < settled then do
        let obligation ← SettlementObligation.build context unit
          (makeObligationId uuid5 sourceType sourceId walk.obligations.length) creditor debtor settled
          currency sourceType sourceId
        pure (walk.obligations ++ [obligation])
      else pure walk.obligations
    let remainingCreditor ← roundForCurrency context unit (context.sub due settled)
    let remainingDebtor ← roundForCurrency context unit (context.sub debt settled)
    return ⟨advance (creditor, remainingCreditor) creditors, advance (debtor, remainingDebtor) debtors,
      obligations⟩
  | _, _ => .ok walk

/-- The output order is by creditor and then by debtor. -/
def obligationBefore (first second : SettlementObligation) : Prop :=
  first.creditorId < second.creditorId ∨ (first.creditorId = second.creditorId ∧ first.debtorId ≤ second.debtorId)

instance : DecidableRel obligationBefore :=
  fun _ _ => inferInstanceAs (Decidable (_ ∨ _))

/-- The runtime checks its inputs, walks both lists and sorts what it found. -/
def generateObligations (fuel : ℕ) (participants : List String) (balances : Dict String RawMoney) :
    Except RuntimeError (List SettlementObligation) := do
  let amounts ← validateInputs context participants balances currency sourceType sourceId
  let unit ← (normalizeCurrency currency).mapError RuntimeError.money
  validateBalanceZeroSum context unit amounts
  let entries := buildBalanceEntries context participants amounts
  let walk ← Loop.run Walk.done (Walk.pass uuid5 context unit currency sourceType sourceId)
    RuntimeError.diverged fuel ⟨entries.1, entries.2, []⟩
  return walk.obligations.insertionSort obligationBefore

end Generate

theorem makeObligationId_ne_empty (uuid5 : String → BitVec 128) (sourceType sourceId : String)
    (index : ℕ) :
    makeObligationId uuid5 sourceType sourceId index ≠ "" := by
  intro empty
  have chars := congrArg String.toList empty
  simp [makeObligationId, uuidText] at chars

variable {context : Context} {unit : Currency} {currency : String}

theorem roundForCurrency_held {value : ℚ} (held : context.Holds (minorUnits unit) value) :
    roundForCurrency context unit value = .ok value := by
  rw [roundForCurrency, mapError_ok, quantizeForCurrency_eq_ok]
  exact held.quantize halfUp

variable {sourceType sourceId : String} {people : List String}

/-- Two named parties, a held positive amount and a named source make an obligation. -/
theorem build_succeeds {obligationId creditorId debtorId : String} {amount : ℚ} (identified : obligationId ≠ "")
    (creditorNamed : creditorId ≠ "") (debtorNamed : debtorId ≠ "") (distinct : creditorId ≠ debtorId)
    (positive : 0 < amount) (held : context.Holds (minorUnits unit) amount) (currencyNamed : currency ≠ "")
    (sourceTyped : sourceType ≠ "") (sourceNamed : sourceId ≠ "") :
    SettlementObligation.build context unit obligationId creditorId debtorId amount currency sourceType
        sourceId =
      .ok { obligationId, creditorId, debtorId, amount, currency, sourceType, sourceId, identified,
            creditorNamed, debtorNamed, distinct, positive, currencyNamed, sourceTyped, sourceNamed } := by
  unfold SettlementObligation.build
  rw [dif_pos identified, dif_pos creditorNamed, dif_pos debtorNamed, dif_pos distinct, dif_pos positive, bind_ok]
  refine ⟨(), ?_, ?_⟩
  · rw [mapError_ok, validateAmountForCurrency_ok]
    exact held
  · rw [dif_pos currencyNamed, dif_pos sourceTyped, dif_pos sourceNamed]
    rfl

/-- Finite decimals are passed on unchanged. -/
def decimalBalances (balances : Dict String Number) : Dict String RawMoney :=
  balances.map fun _ number => .decimal (.finite number)

theorem validateBalance_decimal {person : String} {number : Number} (member : person ∈ people)
    (known : normalizeCurrency (L := RuntimeLabel) currency = .ok unit)
    (held : context.Holds (minorUnits unit) number.value) :
    validateBalance context people currency person (.decimal (.finite number)) = .ok number.value := by
  unfold validateBalance
  rw [bind_ok]
  refine ⟨(), require_ok.mpr member, ?_⟩
  rw [bind_ok]
  refine ⟨number, rfl, ?_⟩
  rw [bind_ok]
  refine ⟨unit, mapError_ok.mpr known, ?_⟩
  rw [bind_ok]
  exact ⟨(), mapError_ok.mpr (validateAmountForCurrency_ok.mpr held), rfl⟩

/-- Held balances over exactly the participants pass every input check. -/
theorem validateInputs_succeeds {balances : Dict String Number} (listed : people ≠ [])
    (nodup : people.Nodup) (covered : ∀ person, person ∈ balances.keys ↔ person ∈ people)
    (known : normalizeCurrency (L := RuntimeLabel) currency = .ok unit) (currencyNamed : currency ≠ "")
    (sourceTyped : sourceType ≠ "") (sourceNamed : sourceId ≠ "")
    (scaled : ∀ entry ∈ balances.entries, context.Holds (minorUnits unit) entry.2.value) :
    validateInputs context people (decimalBalances balances) currency sourceType sourceId =
      .ok (balances.map fun _ number => number.value) := by
  have keys : (decimalBalances balances).keys = balances.keys := by
    simp [decimalBalances, Dict.map, Dict.keys, Function.comp_def]
  unfold validateInputs
  simp only [bind_ok, require_ok, forM_ok]
  refine ⟨(), listed, (), nodup, (), currencyNamed, (), sourceTyped, (), sourceNamed, (), ?_, ?_⟩
  · intro person member
    rw [keys]
    exact (covered person).mpr member
  · rw [Dict.mapM_ok]
    simp only [decimalBalances, Dict.map]
    rw [List.forall₂_map_left_iff, List.forall₂_map_right_iff, List.forall₂_same]
    intro entry member
    refine ⟨rfl, validateBalance_decimal ?_ known (scaled entry member)⟩
    exact (covered entry.1).mp (List.mem_map_of_mem (f := Prod.fst) member)

end FinanceCore.Settlement
