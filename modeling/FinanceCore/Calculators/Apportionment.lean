import FinanceCore.Calculators.PayerRemainder
import FinanceCore.Foundation.Sorting

namespace FinanceCore.Calculators

open Decimal Exceptions Money Sorting List Dict

variable {people : List String}

/-- The participants from the largest fraction down, at equal fractions by name. -/
def ranking (fraction : String → ℚ) (participants : List String) : List String :=
  sortOn (fun participant => toLex (-fraction participant, participant)) participants

def roundedUp (fraction : String → ℚ) (participants : List String) (count : ℕ) : List String :=
  (ranking fraction participants).take count

section Ranking

variable {fraction : String → ℚ} {count : ℕ} {person : String}

theorem length_ranking : (ranking fraction people).length = people.length := (perm_sortOn _ people).length_eq

theorem nodup_roundedUp (nodup : people.Nodup) : (roundedUp fraction people count).Nodup :=
  (take_sublist _ _).nodup ((perm_sortOn _ people).nodup_iff.mpr nodup)

theorem sum_roundedUp (nodup : people.Nodup) (few : count ≤ people.length) :
    (people.map fun person => (roundedUp fraction people count).count person).sum = count := by
  have inside : ∀ person ∈ (roundedUp fraction people count : Multiset String), person ∈ people.toFinset :=
    fun person up => mem_toFinset.mpr (mem_sortOn.mp (mem_of_mem_take up))
  have total := Multiset.sum_count_eq_card inside
  simp only [Multiset.coe_count, Multiset.coe_card] at total
  rw [← sum_toFinset _ nodup, total, roundedUp, length_take, length_ranking, min_eq_left few]

/-- Nobody is rounded up before another participant of a higher rank. -/
theorem rank_of_roundedUp {other : String} (up : person ∈ roundedUp fraction people count)
    (member : other ∈ people) (down : other ∉ roundedUp fraction people count) :
    fraction other < fraction person ∨ fraction other = fraction person ∧ person ≤ other := by
  have ranked : other ∈ ranking fraction people := mem_sortOn.mpr member
  rw [← take_append_drop count (ranking fraction people), mem_append] at ranked
  have sorted := pairwise_sortOn (fun person => toLex (-fraction person, person)) people
  rw [← take_append_drop count (sortOn _ people), pairwise_append] at sorted
  have before := sorted.2.2 _ up _ (ranked.resolve_left down)
  simpa only [Prod.Lex.toLex_le_toLex, neg_lt_neg_iff, neg_inj, eq_comm] using before

/-- As many fractions as there are units to hand out leave no whole share rounded up. -/
theorem fraction_pos_of_roundedUp (nodup : people.Nodup) (nonneg : ∀ person, 0 ≤ fraction person)
    (few : count ≤ people.countP fun person => fraction person ≠ 0)
    (up : person ∈ roundedUp fraction people count) : 0 < fraction person := by
  refine (nonneg person).lt_of_ne' fun whole => ?_
  have counted : people.countP (fun person => fraction person ≠ 0) ≤
      ((roundedUp fraction people count).erase person).length := by
    rw [countP_eq_length_filter]
    refine ((nodup.filter _).subperm fun other listed => ?_).length_le
    obtain ⟨member, uneven⟩ := mem_filter.mp listed
    have different : other ≠ person := fun same => of_decide_eq_true uneven (same ▸ whole)
    rw [mem_erase_of_ne different]
    by_contra down
    rcases rank_of_roundedUp up member down with less | ⟨same, _⟩
    · exact (nonneg other).not_gt (whole ▸ less)
    · exact of_decide_eq_true uneven (same.trans whole)
  have length : (roundedUp fraction people count).length ≤ count := length_take_le _ _
  have nonempty := length_pos_of_mem up
  rw [length_erase_of_mem up] at counted
  omega

theorem distributeRemainder_ranking (nodup : people.Nodup) (units : String → ℤ)
    (few : count ≤ people.length) :
    distributeRemainder .unlimited (tabulate people nodup units) (tabulate people nodup fraction) count =
      .ok (tabulate people nodup fun person => units person + (roundedUp fraction people count).count person) := by
  have ranked : (tabulate people nodup fraction).entries.insertionSort (remainderBefore .unlimited) =
      (ranking fraction people).map fun person => (person, fraction person) := by
    refine (map_insertionSort _ _ _ _ fun first _ second _ => ?_).symm
    rw [Prod.Lex.toLex_le_toLex]
    rfl
  unfold distributeRemainder
  rw [ranked, Int.toNat_natCast]
  induction count with
  | zero => simp [roundedUp, pure, Except.pure]
  | succ count ih =>
    have inside : count < (ranking fraction people).length := length_ranking.symm ▸ few
    rw [range_succ, foldlM_append, ih (by omega), ok_bind, foldlM_cons, getElem?_map, getElem?_eq_getElem inside]
    simp only [expect, Option.map_some, ok_bind]
    rw [modify?_tabulate _ _ _ _ _ (mem_sortOn.mp (getElem_mem inside))]
    refine congrArg Except.ok (tabulate_congr fun person _ => ?_)
    rw [roundedUp, roundedUp, take_succ_eq_append_getElem inside, count_append, count_singleton, Function.update_apply]
    split_ifs with here same same
    · subst here
      push_cast
      ring
    · exact absurd (by simp [here]) same
    · exact absurd (beq_iff_eq.mp same).symm here
    · simp

end Ranking

theorem sum_fract_le (value : String → ℚ) (names : List String) :
    (names.map fun name => Int.fract (value name)).sum ≤ names.countP fun name => Int.fract (value name) ≠ 0 := by
  induction names with
  | nil => simp
  | cons name names ih =>
    rw [map_cons, sum_cons, countP_cons, Nat.cast_add, add_comm]
    refine add_le_add ih ?_
    split_ifs with some
    · exact_mod_cast (Int.fract_lt_one _).le
    · exact (not_not.mp (of_decide_eq_false (Bool.not_eq_true _ ▸ some))).le

/-- The floors leave between no unit and one unit for each value with a fraction. -/
theorem floors_leave {value : String → ℚ} {names : List String} {units : ℤ}
    (near : |(names.map value).sum - units| < 1) :
    0 ≤ units - (names.map fun name => ⌊value name⌋).sum ∧
      units - (names.map fun name => ⌊value name⌋).sum ≤ names.countP fun name => Int.fract (value name) ≠ 0 := by
  have parts : (names.map value).sum =
      ((names.map fun name => ⌊value name⌋).sum : ℤ) + (names.map fun name => Int.fract (value name)).sum := by
    rw [Int.cast_list_sum, map_map, ← sum_map_add]
    simp only [Function.comp_def, Int.floor_add_fract]
  have fractions := sum_fract_le value names
  have nonneg : 0 ≤ (names.map fun name => Int.fract (value name)).sum := by
    exact sum_nonneg (forall_mem_map.mpr fun name _ => Int.fract_nonneg _)
  rw [abs_lt] at near
  generalize (names.map fun name => ⌊value name⌋).sum = floors at *
  generalize names.countP _ = count at *
  have above : (floors : ℚ) < (units + 1 : ℤ) := by
    push_cast
    linarith
  have below : (units : ℚ) < (floors + count + 1 : ℤ) := by
    push_cast
    linarith
  rw [Int.cast_lt] at above below
  omega

/-- Exact shares of the participants that add up to a total of the currency, up to the epsilon of stage A. -/
structure Apportionable (currency : Currency) (participants : List String) (shares : Dict String ℚ)
    (total : ℚ) :
    Prop where
  nodup : participants.Nodup
  keys : shares.keys.Perm participants
  nonneg : shares.All (0 ≤ ·)
  totalNonneg : 0 ≤ total
  scaled : AtScale (minorUnits currency) total
  reconciled : |shares.values.sum - total| ≤ stageAEpsilon

/-- Three equal shares of one dollar, which leave one cent over. -/
def thirds : Dict String ℚ := tabulate ["a", "b", "c"] (by simp) fun _ => 1 / 3

theorem thirds_apportionable : Apportionable .sgd ["a", "b", "c"] thirds 1 where
  nodup := by decide
  keys := by rw [thirds, keys_tabulate]
  nonneg person share found := by
    rw [thirds, get?_tabulate] at found
    split_ifs at found
    exact Option.some.inj found ▸ by norm_num
  totalNonneg := zero_le_one
  scaled := ⟨100, by norm_num [minorUnits]⟩
  reconciled := by norm_num [thirds, stageAEpsilon]

/-- An exact share in minor units. -/
def shareUnits (currency : Currency) (shares : Dict String ℚ) (participant : String) : ℚ :=
  shareOf shares participant * 10 ^ minorUnits currency

section Policies

variable {currency : Currency} {shares : Dict String ℚ} {total : ℚ}

theorem allocateMinorUnits_congr {others : Dict String ℚ} {policy : RemainderPolicy}
    {payer : Option String} (same : shareOf shares = shareOf others) :
    allocateMinorUnits .unlimited shares total currency people policy payer =
      allocateMinorUnits .unlimited others total currency people policy payer := by
  have bases : baseUnits .unlimited shares = baseUnits .unlimited others := by
    funext factor policy person
    rw [baseUnits, baseUnits, same]
  simp only [allocateMinorUnits, validateAllocatorInputs, bases, same]

namespace Apportionable

/-- Shares and total as a receipt. -/
def exact (given : Apportionable currency people shares total) : ExactReceiptShares :=
  ⟨0, total, Dict.tabulate people given.nodup (shareOf shares), [], []⟩

variable (given : Apportionable currency people shares total)
include given

theorem shareOf_exact : shareOf given.exact.participantShares = shareOf shares := by
  funext person
  rw [shareOf, exact, get?_tabulate]
  split_ifs with listed
  · rfl
  · rw [shareOf, get?_eq_none.mpr (given.keys.mem_iff.not.mpr listed)]

theorem sum_shares : (people.map (shareOf shares)).sum = shares.values.sum := by
  rw [values_eq_map shares 0]
  exact (given.keys.map _).sum_eq.symm

theorem sound : given.exact.Sound .unlimited currency people where
  shares := ⟨keys_tabulate people given.nodup _, fun _ _ _ => rfl⟩
  nonneg person share found := by
    rw [exact, get?_tabulate] at found
    split_ifs at found
    exact Option.some.inj found ▸ shareOf_nonneg given.nonneg person
  netHeld := given.scaled.imp fun _ same => ⟨rfl, same⟩
  reconciled := by
    have near := given.reconciled
    rw [abs_sub_comm, ← given.sum_shares] at near
    simpa [exact, Context.abs, Context.sub, Context.sumFrom_unlimited] using near

theorem shareUnits_nonneg (person : String) : 0 ≤ shareUnits currency shares person :=
  mul_nonneg (shareOf_nonneg given.nonneg person) (by positivity)

theorem baseUnits_largest (person : String) :
    baseUnits .unlimited shares (10 ^ minorUnits currency) .largestRemainder person =
      ⟨person, ⌊shareUnits currency shares person⌋, Int.fract (shareUnits currency shares person)⟩ := by
  have units : toMinorUnits .unlimited (shareOf shares person) (10 ^ minorUnits currency) =
      shareUnits currency shares person := toMinorUnits_kept rfl
  simp [baseUnits, units, truncate, given.shareUnits_nonneg person, Context.sub]

theorem sum_shareUnits_near {units : ℤ} (same : total = units / 10 ^ minorUnits currency) :
    |(people.map (shareUnits currency shares)).sum - units| < 1 := by
  have positive : (0 : ℚ) < 10 ^ minorUnits currency := by positivity
  have scaled : (people.map (shareUnits currency shares)).sum - units =
      (shares.values.sum - total) * 10 ^ minorUnits currency := by
    rw [sub_mul, ← given.sum_shares, same, div_mul_cancel₀ _ positive.ne', ← sum_map_mul_right]
    rfl
  rw [scaled, abs_mul, abs_of_pos positive]
  calc _ ≤ stageAEpsilon * 100 :=
        mul_le_mul given.reconciled (pow_minorUnits_le currency) positive.le (by norm_num [stageAEpsilon])
    _ < 1 := by norm_num [stageAEpsilon]

theorem validated (listed : people ≠ []) (payer : Option String) :
    validateAllocatorInputs .unlimited shares total currency people .largestRemainder payer = .ok () := by
  simp only [validateAllocatorInputs, bind_ok, require_ok, ofMoney_ok, validateAmountForCurrency_ok, forM_ok]
  exact ⟨(), listed, (), given.nodup, (), given.totalNonneg, (), given.sound.netHeld, (),
    fun person _ => shareOf_nonneg given.nonneg person, trivial⟩

end Apportionable

/-- The largest-remainder policy always succeeds. The amounts are whole numbers of minor units that add up to the
total, each less than one unit from the exact share, and nobody is rounded up before a larger fraction or, at equal
fractions, before a smaller name. -/
theorem largest_remainder_policy (given : Apportionable currency people shares total)
    (listed : people ≠ []) (payer : Option String) :
    let units := shareUnits currency shares
    ∃ amount : String → ℚ,
      allocateMinorUnits .unlimited shares total currency people .largestRemainder payer =
        .ok (Dict.tabulate people given.nodup amount) ∧
      (people.map amount).sum = total ∧
      (∀ person ∈ people, 0 ≤ amount person ∧ AtScale (minorUnits currency) (amount person) ∧
        |amount person - shareOf shares person| < 1 / 10 ^ minorUnits currency) ∧
      ∀ person ∈ people, ∀ other ∈ people, ⌊units person⌋ / 10 ^ minorUnits currency < amount person →
        amount other ≤ ⌊units other⌋ / 10 ^ minorUnits currency →
        ¬ (Int.fract (units person) < Int.fract (units other) ∨
          Int.fract (units person) = Int.fract (units other) ∧ other < person) := by
  intro units
  have positive : (0 : ℚ) < 10 ^ minorUnits currency := by positivity
  obtain ⟨whole, same⟩ := given.scaled
  obtain ⟨remaining, few⟩ := floors_leave (given.sum_shareUnits_near same)
  obtain ⟨count, counted : whole - (people.map fun person => ⌊units person⌋).sum = count⟩ :=
    Int.eq_ofNat_of_zero_le remaining
  rw [counted, Nat.cast_le] at few
  have length := few.trans countP_le_length
  let up := roundedUp (fun person => Int.fract (units person)) people count
  let final person : ℤ := ⌊units person⌋ + up.count person
  have sum_amounts : (people.map fun person => (final person : ℚ) / 10 ^ minorUnits currency).sum = total := by
    have bumps : (people.map fun person => (up.count person : ℤ)).sum = count := by
      rw [← sum_roundedUp given.nodup length, Nat.cast_list_sum, map_map]
      rfl
    have sum_final : (people.map final).sum = whole := by
      rw [sum_map_add]
      omega
    rw [same, ← sum_final, Int.cast_list_sum, map_map, div_eq_mul_inv, ← sum_map_mul_right]
    rfl
  refine ⟨fun person => final person / 10 ^ minorUnits currency, ?_, sum_amounts, fun person _ => ?_,
    fun person _ other member higher lower => ?_⟩
  · have net : truncate (toMinorUnits .unlimited total (10 ^ minorUnits currency)) = whole := by
      rw [toMinorUnits_kept rfl, same, div_mul_cancel₀ _ positive.ne', truncate_integer]
    have bounds : validateRemainderBounds (count : ℤ) people.length .largestRemainder = .ok () := by
      simp [validateRemainderBounds, require, length]
    unfold allocateMinorUnits
    rw [given.validated listed payer, ok_bind]
    dsimp only
    rw [funext given.baseUnits_largest, map_map, map_map, map_map, net]
    simp only [Function.comp_def]
    rw [counted, bounds, ok_bind, ofList_map_eq_tabulate given.nodup, ofList_map_eq_tabulate given.nodup,
      spreadRemainder, distributeRemainder_ranking given.nodup _ length, ok_bind,
      amounts_of_units given.nodup fun person _ => ⟨_, rfl, rfl⟩, ok_bind, ofList_map_eq_tabulate given.nodup,
      Dict.values_tabulate, Context.sumFrom_unlimited, zero_add, sum_amounts, require, if_pos rfl]
    rfl
  · have floor : 0 ≤ ⌊units person⌋ := Int.floor_nonneg.mpr (given.shareUnits_nonneg person)
    have near : |final person - units person| < 1 := by
      have parts := Int.floor_add_fract (units person)
      have below := Int.fract_lt_one (units person)
      rw [abs_lt]
      by_cases bumped : person ∈ up
      · have some : 0 < Int.fract (units person) :=
          fraction_pos_of_roundedUp given.nodup (fun _ => Int.fract_nonneg _) few bumped
        have once : up.count person = 1 := count_eq_one_of_mem (nodup_roundedUp given.nodup) bumped
        simp only [final, once]
        push_cast
        constructor <;> linarith
      · have fraction := Int.fract_nonneg (units person)
        have none : up.count person = 0 := count_eq_zero_of_not_mem bumped
        simp only [final, none]
        push_cast
        constructor <;> linarith
    refine ⟨div_nonneg (Int.cast_nonneg (add_nonneg floor (Nat.cast_nonneg _))) positive.le, ⟨_, rfl⟩, ?_⟩
    rwa [lt_div_iff₀ positive, ← abs_of_pos positive, ← abs_mul, abs_of_pos positive, sub_mul,
      div_mul_cancel₀ _ positive.ne']
  · rw [div_lt_div_iff_of_pos_right positive, Int.cast_lt, lt_add_iff_pos_right, Nat.cast_pos, count_pos_iff] at higher
    rw [div_le_div_iff_of_pos_right positive, Int.cast_le, add_le_iff_nonpos_right, ← not_lt, Nat.cast_pos,
      count_pos_iff] at lower
    rcases rank_of_roundedUp higher member lower with less | ⟨equal, before⟩
    · exact fun worse => worse.elim less.asymm fun tie => less.ne' tie.1
    · exact fun worse => worse.elim (fun more => more.ne' equal) fun tie => before.not_gt tie.2

/-- Of three equal shares the first name takes the cent that is left over. -/
theorem largest_remainder_policy_thirds :
    ∃ amount : String → ℚ,
      allocateMinorUnits .unlimited thirds 1 .sgd ["a", "b", "c"] .largestRemainder none =
        .ok (Dict.tabulate ["a", "b", "c"] (by simp) amount) ∧
      amount "a" = 34 / 100 ∧ amount "b" = 33 / 100 ∧ amount "c" = 33 / 100 := by
  obtain ⟨amount, run, sum, near, rank⟩ := largest_remainder_policy thirds_apportionable (by decide) none
  have share : ∀ person ∈ ["a", "b", "c"], shareOf thirds person = 1 / 3 := by
    simp [shareOf, thirds]
  have units : ∀ person ∈ ["a", "b", "c"], shareUnits .sgd thirds person = 100 / 3 := by
    intro person member
    rw [shareUnits, share person member]
    norm_num [minorUnits]
  have cents : ∀ person ∈ ["a", "b", "c"], amount person = 33 / 100 ∨ amount person = 34 / 100 := by
    intro person member
    obtain ⟨-, ⟨cents, written⟩, close⟩ := near person member
    rw [share person member, written, abs_lt] at close
    norm_num [minorUnits] at close written
    have lower : (32 : ℚ) < cents := by linarith
    have upper : (cents : ℚ) < 35 := by linarith
    norm_cast at lower upper
    obtain rfl | rfl : cents = 33 ∨ cents = 34 := by omega
    · exact .inl (by simpa using written)
    · exact .inr (by simpa using written)
  have first (person : String) (member : person ∈ ["a", "b", "c"]) (later : "a" < person)
      (bumped : amount person = 34 / 100) (kept : amount "a" = 33 / 100) : False := by
    have floor : ⌊(100 / 3 : ℚ)⌋ = 33 := by norm_num
    refine rank person member "a" (by simp) ?_ ?_ (.inr ⟨?_, later⟩)
    all_goals simp only [units person member, units "a" (by simp), floor, bumped, kept]
    all_goals norm_num [minorUnits]
  simp only [map_cons, map_nil, sum_cons, sum_nil, add_zero] at sum
  refine ⟨amount, run, ?_⟩
  rcases cents "a" (by simp), cents "b" (by simp), cents "c" (by simp) with ⟨a | a, b | b, c | c⟩
  all_goals first
    | exact ⟨a, b, c⟩
    | exact (first "b" (by simp) (by decide) b a).elim
    | exact (first "c" (by simp) (by decide) c a).elim
    | (rw [a, b, c] at sum; norm_num at sum)

/-- The payer policy gives the others the half-up rounding of their shares and the payer the rest of the total. It
fails exactly when that rest is negative, and never because of the bound on the remainder. -/
theorem payer_policy (given : Apportionable currency people shares total) {payer : String}
    (member : payer ∈ people) :
    let rounded person : ℚ := roundHalfUp (shareUnits currency shares person) / 10 ^ minorUnits currency
    let residual := total - ((people.erase payer).map rounded).sum
    (0 ≤ residual →
      allocateMinorUnits .unlimited shares total currency people .payer (some payer) =
        .ok (Dict.tabulate people given.nodup fun person => if person = payer then residual else rounded person)) ∧
    (residual < 0 → ∃ units remaining,
      allocateMinorUnits .unlimited shares total currency people .payer (some payer) =
        .error (.payerCannotAbsorb payer units remaining)) := by
  intro rounded residual
  have positive : (0 : ℚ) < 10 ^ minorUnits currency := by positivity
  have allocated := allocateMinorUnits_payer given.sound given.nodup member given.totalNonneg
  rw [allocateMinorUnits_congr given.shareOf_exact] at allocated
  change allocateMinorUnits .unlimited shares total _ _ _ _ = _ at allocated
  have units (person : String) := exactUnits_eq given.sound person
  rw [given.shareOf_exact] at units
  have own : ((netUnits .unlimited currency given.exact -
      othersUnits .unlimited currency given.exact people payer : ℤ) : ℚ) / 10 ^ minorUnits currency = residual := by
    rw [Int.cast_sub, sub_div, ← (netUnits_spec given.sound).2, othersUnits, Int.cast_list_sum, map_map,
      div_eq_mul_inv, ← sum_map_mul_right]
    simp only [Function.comp_def, units, ← div_eq_mul_inv]
    rfl
  rw [allocated, ← own]
  constructor
  · intro nonneg
    rw [le_div_iff₀ positive, zero_mul, Int.cast_nonneg_iff, sub_nonneg] at nonneg
    rw [if_pos nonneg, own]
    refine congrArg _ (Dict.tabulate_congr fun person _ => ?_)
    unfold finalAmount finalUnits
    split_ifs
    · exact own
    · rw [units]
      rfl
  · intro negative
    rw [div_lt_iff₀ positive, zero_mul, Int.cast_lt_zero, sub_neg] at negative
    rw [if_neg negative.not_ge]
    exact ⟨_, _, rfl⟩

/-- The payer of three equal shares keeps the cent that the others' rounding leaves. -/
theorem payer_policy_thirds :
    allocateMinorUnits .unlimited thirds 1 .sgd ["a", "b", "c"] .payer (some "a") =
      .ok (Dict.tabulate ["a", "b", "c"] (by simp) fun person => if person = "a" then 34 / 100 else 33 / 100) := by
  have rounded : ∀ person ∈ ["a", "b", "c"], roundHalfUp (shareUnits .sgd thirds person) = 33 := by
    have third : roundHalfUp (100 / 3) = 33 := by decide +kernel
    have units : shareUnits .sgd thirds "a" = 100 / 3 ∧ shareUnits .sgd thirds "b" = 100 / 3 ∧
        shareUnits .sgd thirds "c" = 100 / 3 := by
      norm_num [shareUnits, shareOf, thirds, minorUnits]
    simp [units, third]
  have residual : (1 : ℚ) - ((["a", "b", "c"].erase "a").map fun person =>
      (roundHalfUp (shareUnits .sgd thirds person) : ℚ) / 10 ^ minorUnits .sgd).sum = 34 / 100 := by
    simp [rounded, minorUnits]
    norm_num
  refine ((payer_policy thirds_apportionable (by simp)).1 ?_).trans
    (congrArg _ (Dict.tabulate_congr fun person member => ?_))
  · rw [residual]
    norm_num
  · simp only [residual, rounded person member]
    norm_num [minorUnits]

end Policies

end FinanceCore.Calculators
