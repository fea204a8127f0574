import FinanceCore.Foundation.Json

namespace FinanceCore.Json

mutual

/-- An object keeps the last value of each key, at the place of the first one. -/
def settle : Value → Value
  | .array items => .array (settleItems items)
  | .object members => .object (Dict.ofList (settleMembers members)).entries
  | .null => .null
  | .boolean value => .boolean value
  | .integer value => .integer value
  | .float printed => .float printed
  | .text value => .text value

def settleItems : List Value → List Value
  | [] => []
  | item :: items => settle item :: settleItems items

def settleMembers : List (String × Value) → List (String × Value)
  | [] => []
  | (key, value) :: members => (key, settle value) :: settleMembers members

end

/-- The value of a text, with dictionaries for its objects. -/
def loads (printFloat : String → Option String) (text : String) : Option Value := (read printFloat text.toList).map settle

def isDict : Value → Bool
  | .object _ => true
  | _ => false

def Value.integer? : Value → Option ℤ
  | .integer value => some value
  | _ => none

mutual

/-- No number is undefined or infinite. -/
def finite : Value → Bool
  | .float printed => printed ∉ ["NaN", "Infinity", "-Infinity"]
  | .array items => finiteItems items
  | .object members => finiteMembers members
  | _ => true

def finiteItems : List Value → Bool
  | [] => true
  | item :: items => finite item && finiteItems items

def finiteMembers : List (String × Value) → Bool
  | [] => true
  | (_, value) :: members => finite value && finiteMembers members

end

section Agreement

variable (floatNumber : String → Option ℚ)

/-- The number that a value is compared by; a truth value counts as zero or one. -/
def numberOf : Value → Option ℚ
  | .boolean value => some (if value then 1 else 0)
  | .integer value => some value
  | .float printed => floatNumber printed
  | _ => none

/-- Numbers are compared by value, infinite ones by their text; an undefined number equals nothing. -/
def sameNumber (first second : Value) : Bool :=
  match numberOf floatNumber first, numberOf floatNumber second with
  | some first, some second => first = second
  | none, none => first = second && first ≠ .float "NaN"
  | _, _ => false

mutual

/-- Equality of decoded values: numbers by their value, dictionaries without the order of their keys. -/
def agrees : Value → Value → Bool
  | .text first, .text second => first = second
  | .array first, .array second => agreesItems first second
  | .object first, .object second => first.length = second.length && agreesMembers first second
  | .null, .null => true
  | .boolean first, second => sameNumber floatNumber (.boolean first) second
  | .integer first, second => sameNumber floatNumber (.integer first) second
  | .float first, second => sameNumber floatNumber (.float first) second
  | _, _ => false

def agreesItems : List Value → List Value → Bool
  | [], [] => true
  | first :: firsts, second :: seconds => agrees first second && agreesItems firsts seconds
  | _, _ => false

/-- Every member of the first dictionary has its key in the second one, with an equal value. -/
def agreesMembers : List (String × Value) → List (String × Value) → Bool
  | [], _ => true
  | (key, value) :: members, others => (others.lookup key).any (agrees value) && agreesMembers members others

end

end Agreement

end FinanceCore.Json
