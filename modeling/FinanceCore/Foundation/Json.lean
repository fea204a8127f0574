import FinanceCore.Foundation.Dict
import FinanceCore.Foundation.JsonText
import FinanceCore.Foundation.Text

namespace FinanceCore.Json

open Text List

variable {rest : List Char} {value : Value}

/-- A value of the text format; a number with a fraction or an exponent is known by its printed text. -/
inductive Value where
  | null
  | boolean (value : Bool)
  | integer (value : ℤ)
  | float (printed : String)
  | text (value : String)
  | array (items : List Value)
  | object (members : List (String × Value))

section Render

variable (ascii : Bool)

/-- A text between quotes, with its escapes. -/
def renderString (text : String) : List Char := '"' :: (text.toList.flatMap (escapeChar ascii) ++ ['"'])

def renderInteger (value : ℤ) : List Char :=
  if value < 0 then '-' :: natDigits value.natAbs else natDigits value.natAbs

mutual

/-- The compact text of a value; the members of an object stand in their order. -/
def render : Value → List Char
  | .null => ['n', 'u', 'l', 'l']
  | .boolean true => ['t', 'r', 'u', 'e']
  | .boolean false => ['f', 'a', 'l', 's', 'e']
  | .integer value => renderInteger value
  | .float printed => printed.toList
  | .text value => renderString ascii value
  | .array [] => ['[', ']']
  | .array (item :: items) => '[' :: (render item ++ renderItems items)
  | .object [] => ['{', '}']
  | .object ((key, value) :: members) =>
    '{' :: (renderString ascii key ++ ':' :: (render value ++ renderMembers members))

/-- The items behind the first one, up to the closing bracket. -/
def renderItems : List Value → List Char
  | [] => [']']
  | item :: items => ',' :: (render item ++ renderItems items)

def renderMembers : List (String × Value) → List Char
  | [] => ['}']
  | (key, value) :: members => ',' :: (renderString ascii key ++ ':' :: (render value ++ renderMembers members))

end

end Render

def isBlankChar (char : Char) : Bool := char = ' ' || char = '\t' || char = '\n' || char = '\r'

section

variable (chars : List Char)

/-- The text behind its leading blanks. -/
def skipBlanks : List Char := chars.dropWhile isBlankChar

def isAsciiDigit (char : Char) : Bool := '0' ≤ char && char ≤ '9'

/-- The text up to its closing quote. -/
def parseString : Option (String × List Char) :=
  (parseChars (chars.length + 1) chars).map fun parsed => (String.ofList parsed.1, parsed.2)

/-- The fraction of a number needs at least one digit behind the point. -/
def parseFraction : List Char × List Char :=
  match chars with
  | '.' :: rest =>
    let digits := rest.takeWhile isAsciiDigit
    if digits = [] then ([], chars) else ('.' :: digits, rest.dropWhile isAsciiDigit)
  | _ => ([], chars)

def exponentSign : List Char → List Char × List Char
  | '+' :: rest => (['+'], rest)
  | '-' :: rest => (['-'], rest)
  | chars => ([], chars)

/-- The exponent of a number needs at least one digit behind its sign. -/
def parseExponent : List Char × List Char :=
  match chars with
  | marker :: rest =>
    if marker = 'e' ∨ marker = 'E' then
      let signed := exponentSign rest
      let digits := signed.2.takeWhile isAsciiDigit
      if digits = [] then ([], chars) else (marker :: (signed.1 ++ digits), signed.2.dropWhile isAsciiDigit)
    else ([], chars)
  | [] => ([], [])

/-- The digits of the whole part; a leading zero stands alone. -/
def parseWhole : List Char × List Char :=
  match chars with
  | '0' :: rest => (['0'], rest)
  | _ => (chars.takeWhile isAsciiDigit, chars.dropWhile isAsciiDigit)

end

/-- A number is an integer unless it has a fraction or an exponent. -/
def parseNumber (printFloat : String → Option String) (negative : Bool) (chars : List Char) :
    Option (Value × List Char) :=
  let whole := parseWhole chars
  let fraction := parseFraction whole.2
  let exponent := parseExponent fraction.2
  let sign := if negative then ['-'] else []
  if whole.1 = [] then none
  else if fraction.1 = [] ∧ exponent.1 = [] then
    some (.integer (if negative then -(digitsValue whole.1 : ℤ) else digitsValue whole.1), exponent.2)
  else
    (printFloat (String.ofList (sign ++ whole.1 ++ fraction.1 ++ exponent.1))).map fun printed =>
      (.float printed, exponent.2)

/-- A word of the format, or a number. -/
def parseScalar (printFloat : String → Option String) (chars : List Char) : Option (Value × List Char) :=
  if ['n', 'u', 'l', 'l'].isPrefixOf chars then some (.null, chars.drop 4)
  else if ['t', 'r', 'u', 'e'].isPrefixOf chars then some (.boolean true, chars.drop 4)
  else if ['f', 'a', 'l', 's', 'e'].isPrefixOf chars then some (.boolean false, chars.drop 5)
  else if ['N', 'a', 'N'].isPrefixOf chars then some (.float "NaN", chars.drop 3)
  else if "Infinity".toList.isPrefixOf chars then some (.float "Infinity", chars.drop 8)
  else if "-Infinity".toList.isPrefixOf chars then some (.float "-Infinity", chars.drop 9)
  else if chars.head? = some '-' then parseNumber printFloat true chars.tail
  else parseNumber printFloat false chars

mutual

/-- One value at the head of a text, with the rest of the text. -/
def parseValue (printFloat : String → Option String) : ℕ → List Char → Option (Value × List Char)
  | 0, _ => none
  | fuel + 1, chars =>
    if chars.head? = some '"' then
      (parseString chars.tail).map fun parsed => (.text parsed.1, parsed.2)
    else if chars.head? = some '[' then
      let rest := skipBlanks chars.tail
      if rest.head? = some ']' then some (.array [], rest.tail)
      else do
        let item ← parseValue printFloat fuel rest
        let items ← parseItems printFloat fuel (skipBlanks item.2)
        return (.array (item.1 :: items.1), items.2)
    else if chars.head? = some '{' then
      let rest := skipBlanks chars.tail
      if rest.head? = some '}' then some (.object [], rest.tail)
      else do
        let member ← parseMember printFloat fuel rest
        let members ← parseMembers printFloat fuel (skipBlanks member.2)
        return (.object (member.1 :: members.1), members.2)
    else parseScalar printFloat chars

/-- The items behind the first one, up to the closing bracket. -/
def parseItems (printFloat : String → Option String) : ℕ → List Char → Option (List Value × List Char)
  | 0, _ => none
  | fuel + 1, chars =>
    if chars.head? = some ']' then some ([], chars.tail)
    else if chars.head? = some ',' then do
      let item ← parseValue printFloat fuel (skipBlanks chars.tail)
      let items ← parseItems printFloat fuel (skipBlanks item.2)
      return (item.1 :: items.1, items.2)
    else none

/-- A quoted key, a colon and a value. -/
def parseMember (printFloat : String → Option String) : ℕ → List Char → Option ((String × Value) × List Char)
  | 0, _ => none
  | fuel + 1, chars =>
    if chars.head? = some '"' then do
      let key ← parseString chars.tail
      let rest := skipBlanks key.2
      if rest.head? = some ':' then do
        let value ← parseValue printFloat fuel (skipBlanks rest.tail)
        return ((key.1, value.1), value.2)
      else none
    else none

def parseMembers (printFloat : String → Option String) : ℕ → List Char → Option (List (String × Value) × List Char)
  | 0, _ => none
  | fuel + 1, chars =>
    if chars.head? = some '}' then some ([], chars.tail)
    else if chars.head? = some ',' then do
      let member ← parseMember printFloat fuel (skipBlanks chars.tail)
      let members ← parseMembers printFloat fuel (skipBlanks member.2)
      return (member.1 :: members.1, members.2)
    else none

end

/-- The value of a whole text, with blanks around it. -/
def read (printFloat : String → Option String) (chars : List Char) : Option Value := do
  let parsed ← parseValue printFloat (chars.length + 1) (skipBlanks chars)
  if skipBlanks parsed.2 = [] then some parsed.1 else none

section RoundTrip

variable (ascii : Bool)

mutual

/-- A value without a number that is known by its printed text only. -/
def Plain : Value → Prop
  | .float _ => False
  | .array items => PlainItems items
  | .object members => PlainMembers members
  | _ => True

def PlainItems : List Value → Prop
  | [] => True
  | item :: items => Plain item ∧ PlainItems items

def PlainMembers : List (String × Value) → Prop
  | [] => True
  | (_, value) :: members => Plain value ∧ PlainMembers members

end

variable {fuel number : ℕ}

/-- Escaped characters are read back. -/
theorem parseChars_rendered (chars rest : List Char) (enough : chars.length < fuel) :
    parseChars fuel (chars.flatMap (escapeChar ascii) ++ '"' :: rest) = some (chars, rest) := by
  induction chars generalizing fuel with
  | nil =>
    obtain ⟨fuel, rfl⟩ := Nat.exists_eq_succ_of_ne_zero (by omega : fuel ≠ 0)
    rfl
  | cons head tail ih =>
    obtain ⟨fuel, rfl⟩ := Nat.exists_eq_succ_of_ne_zero (by omega : fuel ≠ 0)
    rw [flatMap_cons, append_assoc, parseChars_escapeChar]
    rw [ih (by simpa using enough)]
    rfl

theorem escapeChar_ne_nil (char : Char) : escapeChar ascii char ≠ [] := by
  unfold escapeChar hexEscape
  split_ifs <;> simp

theorem length_le_escaped (chars : List Char) : chars.length ≤ (chars.flatMap (escapeChar ascii)).length := by
  induction chars with
  | nil => simp
  | cons head tail ih =>
    have positive := length_pos_of_ne_nil (escapeChar_ne_nil ascii head)
    simp only [flatMap_cons, length_append, length_cons]
    omega

/-- A rendered text is read back. -/
theorem parseString_rendered (text : String) (rest : List Char) :
    parseString (text.toList.flatMap (escapeChar ascii) ++ '"' :: rest) = some (text, rest) := by
  have bound := length_le_escaped ascii text.toList
  unfold parseString
  rw [parseChars_rendered ascii text.toList rest (by simp only [length_append, length_cons]; omega)]
  simp

theorem renderString_append (text : String) (rest : List Char) :
    renderString ascii text ++ rest = '"' :: (text.toList.flatMap (escapeChar ascii) ++ '"' :: rest) := by
  simp [renderString]

/-- What may stand behind a number so that the number ends there. -/
def Stops (rest : List Char) : Prop :=
  ∀ char ∈ rest.head?, isAsciiDigit char = false ∧ char ≠ '.' ∧ char ≠ 'e' ∧ char ≠ 'E'

theorem isAsciiDigit_digitChar (digit : ℕ) : isAsciiDigit (digitChar digit) = true :=
  digitChar_induction (P := fun char => isAsciiDigit char = true) (by decide) digit

variable {char : Char}

theorem isAsciiDigit_natDigits (member : char ∈ natDigits number) : isAsciiDigit char = true := by
  obtain ⟨digit, rfl⟩ := mem_fixedDigits member
  exact isAsciiDigit_digitChar digit

/-- The digits of a number are read to their end. -/
theorem parseWhole_natDigits (number : ℕ) (stop : Stops rest) :
    parseWhole (natDigits number ++ rest) = (natDigits number, rest) := by
  by_cases zero : number = 0
  · rw [zero]
    rfl
  · obtain ⟨head, tail, same, other⟩ := natDigits_head zero
    have digits : ∀ char ∈ natDigits number, isAsciiDigit char = true := fun _ => isAsciiDigit_natDigits
    have split := while_append digits fun char member => (stop char member).1
    unfold parseWhole
    split
    · rename_i found
      rw [same, cons_append, cons.injEq] at found
      exact absurd found.1 other
    · rw [split.1, split.2]

theorem parseFraction_stop (stop : Stops rest) : parseFraction rest = ([], rest) := by
  unfold parseFraction
  split
  · exact absurd rfl (stop '.' rfl).2.1
  · rfl

theorem parseExponent_stop (stop : Stops rest) : parseExponent rest = ([], rest) := by
  cases rest with
  | nil => rfl
  | cons head tail =>
    have other := stop head rfl
    exact if_neg (by rintro (same | same) <;> simp_all)

variable (printFloat : String → Option String)

/-- A number is read back with its sign. -/
theorem parseNumber_natDigits (negative : Bool) (number : ℕ) (stop : Stops rest) :
    parseNumber printFloat negative (natDigits number ++ rest) =
      some (.integer (if negative then -(number : ℤ) else number), rest) := by
  unfold parseNumber
  rw [parseWhole_natDigits number stop]
  dsimp only
  rw [parseFraction_stop stop]
  rw [parseExponent_stop stop]
  rw [if_neg (natDigits_ne_nil number), if_pos ⟨rfl, rfl⟩, digitsValue_natDigits]

/-- A character that begins none of the words of the format. -/
def NotWord (char : Char) : Prop :=
  char ≠ 'n' ∧ char ≠ 't' ∧ char ≠ 'f' ∧ char ≠ 'N' ∧ char ≠ 'I' ∧ char ≠ '-'

variable (digit : isAsciiDigit char = true)
include digit

theorem notWord_of_digit : NotWord char := by
  refine ⟨?_, ?_, ?_, ?_, ?_, ?_⟩ <;> rintro rfl <;> revert digit <;> decide

theorem parseScalar_digit (rest : List Char) :
    parseScalar printFloat (char :: rest) = parseNumber printFloat false (char :: rest) := by
  obtain ⟨notN, notT, notF, notNan, notI, notMinus⟩ := notWord_of_digit digit
  simp [parseScalar, isPrefixOf, beq_iff_eq, notN.symm, notT.symm, notF.symm, notNan.symm, notI.symm,
    notMinus.symm, notMinus]

theorem parseScalar_minus (rest : List Char) :
    parseScalar printFloat ('-' :: char :: rest) = parseNumber printFloat true (char :: rest) := by
  obtain ⟨notN, notT, notF, notNan, notI, notMinus⟩ := notWord_of_digit digit
  simp [parseScalar, isPrefixOf, beq_iff_eq, notI.symm]

omit digit

/-- A rendered integer is read back. -/
theorem parseScalar_integer (value : ℤ) (stop : Stops rest) :
    parseScalar printFloat (renderInteger value ++ rest) = some (.integer value, rest) := by
  obtain ⟨head, tail, same⟩ := exists_cons_of_ne_nil (natDigits_ne_nil value.natAbs)
  have member : head ∈ natDigits value.natAbs := by
    rw [same]
    exact mem_cons_self ..
  have digit : isAsciiDigit head = true := isAsciiDigit_natDigits member
  unfold renderInteger
  split
  · have read := parseNumber_natDigits printFloat true value.natAbs stop
    rw [same, cons_append] at read ⊢
    rw [cons_append, parseScalar_minus printFloat digit, read, if_pos rfl]
    congr 3
    omega
  · have read := parseNumber_natDigits printFloat false value.natAbs stop
    rw [same, cons_append] at read ⊢
    rw [parseScalar_digit printFloat digit, read]
    simp
    omega

theorem skipBlanks_cons (other : isBlankChar char = false) (rest : List Char) :
    skipBlanks (char :: rest) = char :: rest := by
  simp [skipBlanks, other]

theorem renderInteger_head (value : ℤ) : ∃ head tail, renderInteger value = head :: tail ∧
    (isAsciiDigit head = true ∨ head = '-') := by
  obtain ⟨head, tail, same⟩ := exists_cons_of_ne_nil (natDigits_ne_nil value.natAbs)
  unfold renderInteger
  split
  · exact ⟨_, _, rfl, Or.inr rfl⟩
  · have member : head ∈ natDigits value.natAbs := by
      rw [same]
      exact mem_cons_self ..
    exact ⟨head, tail, same, Or.inl (isAsciiDigit_natDigits member)⟩

/-- A character that can begin the text of a value. -/
def Begins (char : Char) : Prop := isBlankChar char = false ∧ char ≠ ']'

/-- A rendered value begins with no blank and no bracket that closes. -/
theorem render_head (plain : Plain value) : ∃ head tail, render ascii value = head :: tail ∧ Begins head := by
  cases value with
  | null => exact ⟨_, _, rfl, by decide, by decide⟩
  | boolean value => cases value <;> exact ⟨_, _, rfl, by decide, by decide⟩
  | integer value =>
    obtain ⟨head, tail, same, digit | rfl⟩ := renderInteger_head value
    · refine ⟨head, tail, same, ?_, ?_⟩
      · by_contra blank
        simp only [isBlankChar, Bool.not_eq_false, Bool.or_eq_true, decide_eq_true_eq] at blank
        rcases blank with ((rfl | rfl) | rfl) | rfl <;> exact absurd digit (by decide)
      · rintro rfl
        exact absurd digit (by decide)
    · exact ⟨_, _, same, by decide, by decide⟩
  | float printed => exact plain.elim
  | text value => exact ⟨_, _, rfl, by decide, by decide⟩
  | array items => cases items <;> exact ⟨_, _, rfl, by decide, by decide⟩
  | object members => cases members <;> exact ⟨_, _, rfl, by decide, by decide⟩

theorem stops_of_head {head : Char} (tail : List Char)
    (other : isAsciiDigit head = false ∧ head ≠ '.' ∧ head ≠ 'e' ∧ head ≠ 'E') : Stops (head :: tail) := by
  intro char member
  rw [head?_cons, Option.mem_some_iff] at member
  exact member ▸ other

theorem renderItems_head (items : List Value) : ∃ head tail, renderItems ascii items = head :: tail ∧
    (head = ',' ∨ head = ']') := by
  cases items with
  | nil => exact ⟨_, _, rfl, Or.inr rfl⟩
  | cons item items => exact ⟨_, _, rfl, Or.inl rfl⟩

theorem renderItems_next (items : List Value) (rest : List Char) : Stops (renderItems ascii items ++ rest) ∧
    skipBlanks (renderItems ascii items ++ rest) = renderItems ascii items ++ rest := by
  obtain ⟨head, tail, same, rfl | rfl⟩ := renderItems_head ascii items <;> rw [same] <;>
    exact ⟨stops_of_head _ (by decide), skipBlanks_cons (by decide) _⟩

theorem renderMembers_head (members : List (String × Value)) :
    ∃ head tail, renderMembers ascii members = head :: tail ∧ (head = ',' ∨ head = '}') := by
  cases members with
  | nil => exact ⟨_, _, rfl, Or.inr rfl⟩
  | cons member members => exact ⟨_, _, rfl, Or.inl rfl⟩

theorem renderMembers_next (members : List (String × Value)) (rest : List Char) :
    Stops (renderMembers ascii members ++ rest) ∧
      skipBlanks (renderMembers ascii members ++ rest) = renderMembers ascii members ++ rest := by
  obtain ⟨head, tail, same, rfl | rfl⟩ := renderMembers_head ascii members <;> rw [same] <;>
    exact ⟨stops_of_head _ (by decide), skipBlanks_cons (by decide) _⟩

/-- A rendered value has no leading blanks. -/
theorem skipBlanks_render (plain : Plain value) (rest : List Char) :
    skipBlanks (render ascii value ++ rest) = render ascii value ++ rest := by
  obtain ⟨head, tail, same, begins⟩ := render_head ascii plain
  rw [same]
  exact skipBlanks_cons begins.1 _

/-- A member is read back when its value is. -/
theorem parseMember_rendered (key : String) (plain : Plain value)
    (read : parseValue printFloat fuel (render ascii value ++ rest) = some (value, rest)) :
    parseMember printFloat (fuel + 1) (renderString ascii key ++ ':' :: (render ascii value ++ rest)) =
      some ((key, value), rest) := by
  rw [renderString_append, parseMember, if_pos (head?_cons ..), tail_cons, parseString_rendered,
    Option.bind_eq_bind, Option.bind_some]
  rw [skipBlanks_cons (by decide), if_pos (head?_cons ..), tail_cons, skipBlanks_render ascii plain, read]
  rfl

section Containers

variable {ascii printFloat} {fuel : ℕ} {items : List Value} {members : List (String × Value)}

section

variable (plain : Plain value)
  (first : parseValue printFloat fuel (render ascii value ++ (renderItems ascii items ++ rest)) =
    some (value, renderItems ascii items ++ rest))
  (others : parseItems printFloat fuel (renderItems ascii items ++ rest) = some (items, rest))
include plain first others

/-- A list is read back from its first item and the rest. -/
theorem parseItems_step :
    parseItems printFloat (fuel + 1) (renderItems ascii (value :: items) ++ rest) = some (value :: items, rest) := by
  rw [renderItems, cons_append, append_assoc, parseItems,
    tail_cons, skipBlanks_render ascii plain, first, Option.bind_eq_bind, Option.bind_some]
  rw [(renderItems_next ascii items rest).2, others]
  rfl

theorem parseValue_array :
    parseValue printFloat (fuel + 1) (render ascii (.array (value :: items)) ++ rest) =
      some (.array (value :: items), rest) := by
  obtain ⟨head, tail, same, begins⟩ := render_head ascii plain
  have opened : ¬ (render ascii value ++ (renderItems ascii items ++ rest)).head? = some ']' := by
    simpa [same] using begins.2
  rw [render, cons_append, append_assoc, parseValue]
  dsimp only [tail_cons]
  rw [skipBlanks_render ascii plain, if_neg opened, first, Option.bind_eq_bind, Option.bind_some]
  rw [(renderItems_next ascii items rest).2, others]
  rfl

end

theorem member_append (key : String) (value : Value) (members : List (String × Value))
    (rest : List Char) :
    renderString ascii key ++ ':' :: (render ascii value ++ renderMembers ascii members) ++ rest =
      renderString ascii key ++ ':' :: (render ascii value ++ (renderMembers ascii members ++ rest)) := by
  simp

theorem skipBlanks_member (key : String) (rest : List Char) :
    skipBlanks (renderString ascii key ++ rest) = renderString ascii key ++ rest :=
  skipBlanks_cons (by decide) _

section

variable (key : String)
  (plain : Plain value)
  (first : parseValue printFloat fuel (render ascii value ++ (renderMembers ascii members ++ rest)) =
    some (value, renderMembers ascii members ++ rest))
  (others : parseMembers printFloat (fuel + 1) (renderMembers ascii members ++ rest) = some (members, rest))
include key plain first others

/-- An object is read back from its first member and the rest. -/
theorem parseMembers_step :
    parseMembers printFloat (fuel + 2) (renderMembers ascii ((key, value) :: members) ++ rest) =
      some ((key, value) :: members, rest) := by
  rw [renderMembers, cons_append, member_append, parseMembers,
    tail_cons, skipBlanks_member, parseMember_rendered ascii printFloat key plain first, Option.bind_eq_bind,
    Option.bind_some]
  rw [(renderMembers_next ascii members rest).2, others]
  rfl

theorem parseValue_object :
    parseValue printFloat (fuel + 2) (render ascii (.object ((key, value) :: members)) ++ rest) =
      some (.object ((key, value) :: members), rest) := by
  rw [render, cons_append, member_append, parseValue, if_neg (by simp), if_neg (by simp)]
  dsimp only [tail_cons]
  rw [skipBlanks_member, parseMember_rendered ascii printFloat key plain first, Option.bind_eq_bind, Option.bind_some]
  rw [(renderMembers_next ascii members rest).2, others]
  rfl

end

/-- An integer is read back as a value. -/
theorem parseValue_integer (value : ℤ) (stop : Stops rest) :
    parseValue printFloat (fuel + 1) (renderInteger value ++ rest) = some (.integer value, rest) := by
  have read := parseScalar_integer printFloat value stop
  obtain ⟨head, tail, same, kind⟩ := renderInteger_head value
  rw [same] at read ⊢
  have other : head ≠ '"' ∧ head ≠ '[' ∧ head ≠ '{' := by
    rcases kind with digit | rfl
    · refine ⟨?_, ?_, ?_⟩ <;> rintro rfl <;> exact absurd digit (by decide)
    · decide
  rw [parseValue, if_neg (by simpa using other.1), if_neg (by simpa using other.2.1), if_neg (by simpa using other.2.2),
    read]

/-- A text is read back as a value. -/
theorem parseValue_text (text : String) :
    parseValue printFloat (fuel + 1) (renderString ascii text ++ rest) = some (.text text, rest) := by
  rw [renderString_append, parseValue, tail_cons, parseString_rendered]
  rfl

end Containers

mutual

/-- Reading the text of a value gives the value back, whatever stands behind it. -/
theorem parseValue_render : ∀ (value : Value) (rest : List Char) (fuel : ℕ), Plain value → Stops rest →
    (render ascii value).length ≤ fuel → parseValue printFloat fuel (render ascii value ++ rest) = some (value, rest)
  | .null, _, fuel + 1, _, _, _ => by simp [parseValue, render, parseScalar]
  | .boolean true, _, fuel + 1, _, _, _ => by simp [parseValue, render, parseScalar, isPrefixOf]
  | .boolean false, _, fuel + 1, _, _, _ => by simp [parseValue, render, parseScalar, isPrefixOf]
  | .integer value, _, fuel + 1, _, stop, _ => parseValue_integer value stop
  | .text value, _, fuel + 1, _, _, _ => parseValue_text value
  | .array [], rest, fuel + 1, _, _, _ => by
    simp [parseValue, render, skipBlanks_cons (show isBlankChar ']' = false by decide)]
  | .array (item :: items), rest, fuel + 1, plain, _, enough => by
    have lengths : (render ascii item).length ≤ fuel ∧ (renderItems ascii items).length ≤ fuel := by
      simp only [render, length_cons, length_append] at enough
      omega
    have first := parseValue_render item _ fuel plain.1 (renderItems_next ascii items rest).1 lengths.1
    exact parseValue_array plain.1 first (parseItems_render items rest fuel plain.2 lengths.2)
  | .object [], rest, fuel + 1, _, _, _ => by
    simp [parseValue, render, skipBlanks_cons (show isBlankChar '}' = false by decide)]
  | .object ((key, value) :: members), rest, fuel + 2, plain, _, enough => by
    have lengths : (render ascii value).length ≤ fuel ∧ (renderMembers ascii members).length ≤ fuel + 1 := by
      simp only [render, renderString, length_cons, length_append] at enough
      omega
    have first := parseValue_render value _ fuel plain.1 (renderMembers_next ascii members rest).1 lengths.1
    exact parseValue_object key plain.1 first (parseMembers_render members rest _ plain.2 lengths.2)
  | .object ((key, value) :: members), rest, 1, _, _, enough => by simp [render, renderString] at enough
  | value, _, 0, plain, _, enough => by
    obtain ⟨head, tail, same, -⟩ := render_head ascii plain
    simp [same] at enough

theorem parseItems_render : ∀ (items : List Value) (rest : List Char) (fuel : ℕ), PlainItems items →
    (renderItems ascii items).length ≤ fuel →
      parseItems printFloat fuel (renderItems ascii items ++ rest) = some (items, rest)
  | [], rest, fuel + 1, _, _ => rfl
  | item :: items, rest, fuel + 1, plain, enough => by
    have lengths : (render ascii item).length ≤ fuel ∧ (renderItems ascii items).length ≤ fuel := by
      simp only [renderItems, length_cons, length_append] at enough
      omega
    have first := parseValue_render item _ fuel plain.1 (renderItems_next ascii items rest).1 lengths.1
    exact parseItems_step plain.1 first (parseItems_render items rest fuel plain.2 lengths.2)
  | items, _, 0, _, enough => by
    obtain ⟨head, tail, same, -⟩ := renderItems_head ascii items
    simp [same] at enough

theorem parseMembers_render : ∀ (members : List (String × Value)) (rest : List Char) (fuel : ℕ),
    PlainMembers members → (renderMembers ascii members).length ≤ fuel →
      parseMembers printFloat fuel (renderMembers ascii members ++ rest) = some (members, rest)
  | [], rest, fuel + 1, _, _ => rfl
  | (key, value) :: members, rest, fuel + 2, plain, enough => by
    have lengths : (render ascii value).length ≤ fuel ∧
      (renderMembers ascii members).length ≤ fuel + 1 := by
      simp only [renderMembers, renderString, length_cons, length_append] at enough
      omega
    have first := parseValue_render value _ fuel plain.1 (renderMembers_next ascii members rest).1 lengths.1
    exact parseMembers_step key plain.1 first (parseMembers_render members rest _ plain.2 lengths.2)
  | (key, value) :: members, rest, 1, _, enough => by simp [renderMembers, renderString] at enough
  | members, _, 0, _, enough => by
    obtain ⟨head, tail, same, -⟩ := renderMembers_head ascii members
    simp [same] at enough

end

/-- The text of a value is read back as the value. -/
theorem read_render (plain : Plain value) : read printFloat (render ascii value) = some value := by
  have parsed := parseValue_render ascii printFloat value [] _ plain (by simp [Stops]) (Nat.le_succ _)
  have skipped := skipBlanks_render ascii plain []
  rw [append_nil] at parsed skipped
  unfold read
  rw [skipped, parsed]
  rfl

/-- Two values with one text are the same value. -/
theorem render_injective {first second : Value} (plainFirst : Plain first)
    (plainSecond : Plain second)
    (same : render ascii first = render ascii second) : first = second := by
  have readFirst := read_render ascii (fun _ => none) plainFirst
  have readSecond := read_render ascii (fun _ => none) plainSecond
  rw [same, readSecond] at readFirst
  exact (Option.some.inj readFirst).symm

end RoundTrip

section SortedKeys

mutual

/-- The value with the members of every object in the order of their keys. -/
def sortKeys : Value → Value
  | .array items => .array (sortItems items)
  | .object members => .object ((sortMembers members).insertionSort fun first second => first.1 ≤ second.1)
  | .null => .null
  | .boolean value => .boolean value
  | .integer value => .integer value
  | .float printed => .float printed
  | .text value => .text value

def sortItems : List Value → List Value
  | [] => []
  | item :: items => sortKeys item :: sortItems items

def sortMembers : List (String × Value) → List (String × Value)
  | [] => []
  | (key, value) :: members => (key, sortKeys value) :: sortMembers members

end

theorem sortItems_eq_map (items : List Value) : sortItems items = items.map sortKeys := by
  induction items with
  | nil => rfl
  | cons item items ih => rw [sortItems, ih, map_cons]

theorem sortMembers_eq_map (members : List (String × Value)) :
    sortMembers members = members.map fun member => (member.1, sortKeys member.2) := by
  induction members with
  | nil => rfl
  | cons member members ih => rw [sortMembers, ih, map_cons]

theorem plainMembers_iff (members : List (String × Value)) :
    PlainMembers members ↔ ∀ member ∈ members, Plain member.2 := by
  induction members with
  | nil => simp [PlainMembers]
  | cons member members ih => rw [PlainMembers, ih, forall_mem_cons]

theorem plainMembers_append {first second : List (String × Value)} :
    PlainMembers (first ++ second) ↔ PlainMembers first ∧ PlainMembers second := by
  simp only [plainMembers_iff, forall_mem_append]

theorem plainItems_map {α : Type} {items : List α} {write : α → Value}
    (plain : ∀ item, Plain (write item)) :
    PlainItems (items.map write) := by
  induction items with
  | nil => trivial
  | cons item items ih => exact ⟨plain item, ih⟩

mutual

/-- Sorting keys keeps a value plain. -/
theorem plain_sortKeys : ∀ (value : Value), Plain value → Plain (sortKeys value)
  | .array items, plain => plainItems_sortItems items plain
  | .object members, plain => by
    have sorted := (plainMembers_iff _).mp (plainMembers_sortMembers members plain)
    rw [sortKeys]
    exact (plainMembers_iff _).mpr fun member inside => sorted member ((mem_insertionSort _).mp inside)
  | .null, _ | .boolean _, _ | .integer _, _ | .text _, _ => trivial

theorem plainItems_sortItems : ∀ (items : List Value), PlainItems items → PlainItems (sortItems items)
  | [], _ => trivial
  | item :: items, plain => ⟨plain_sortKeys item plain.1, plainItems_sortItems items plain.2⟩

theorem plainMembers_sortMembers : ∀ (members : List (String × Value)), PlainMembers members →
    PlainMembers (sortMembers members)
  | [], _ => trivial
  | (_, value) :: members, plain => ⟨plain_sortKeys value plain.1, plainMembers_sortMembers members plain.2⟩

end

/-- The members of an object; a value of another kind has none. -/
def Value.members : Value → List (String × Value)
  | .object members => members
  | _ => []

variable {members : List (String × Value)}

/-- A lookup among distinct keys finds the member. -/
theorem lookup_eq_some_iff (distinct : (members.map Prod.fst).Nodup) (key : String)
    (value : Value) :
    members.lookup key = some value ↔ (key, value) ∈ members := by
  let dict : Dict String Value := ⟨members, distinct⟩
  exact (Dict.mem_entries_iff : (key, value) ∈ dict.entries ↔ _).symm

theorem lookup_map (members : List (String × Value)) (change : Value → Value) (key : String) :
    (members.map fun member => (member.1, change member.2)).lookup key = (members.lookup key).map change := by
  induction members with
  | nil => rfl
  | cons member members ih =>
    rw [map_cons, lookup_cons, lookup_cons, ih]
    split <;> rfl

/-- Ordering the members does not change which value stands at a key. -/
theorem lookup_sortKeys (distinct : (members.map Prod.fst).Nodup) (key : String) :
    (sortKeys (.object members)).members.lookup key = (members.lookup key).map sortKeys := by
  have keys : ((sortMembers members).map Prod.fst).Nodup := by
    rw [sortMembers_eq_map, map_map]
    exact distinct
  have order := perm_insertionSort (fun first second : String × Value => first.1 ≤ second.1) (sortMembers members)
  rw [← lookup_map, ← sortMembers_eq_map]
  refine Option.ext fun value => ?_
  rw [lookup_eq_some_iff keys, sortKeys, Value.members, lookup_eq_some_iff ((order.map _).nodup_iff.mpr keys),
    order.mem_iff]

/-- Two objects with one sorted form have the same value at every key, up to the order inside the value. -/
theorem lookup_eq_of_sortKeys {first second : List (String × Value)}
    (distinct : (first.map Prod.fst).Nodup)
    (distinct' : (second.map Prod.fst).Nodup) (same : sortKeys (.object first) = sortKeys (.object second))
    (key : String) : (first.lookup key).map sortKeys = (second.lookup key).map sortKeys := by
  rw [← lookup_sortKeys distinct, ← lookup_sortKeys distinct', same]

/-- The text that is written for a value, with sorted keys. -/
def dumps (ascii : Bool) (value : Value) : List Char := render ascii (sortKeys value)

/-- Equal texts come from values with equal sorted forms. -/
theorem dumps_injective {ascii : Bool} {first second : Value} (plainFirst : Plain first)
    (plainSecond : Plain second)
    (same : dumps ascii first = dumps ascii second) : sortKeys first = sortKeys second :=
  render_injective ascii (plain_sortKeys first plainFirst) (plain_sortKeys second plainSecond) same

end SortedKeys

mutual

/-- Two values are compared part by part. -/
def Value.same : Value → Value → Bool
  | .null, .null => true
  | .boolean first, .boolean second => first == second
  | .integer first, .integer second => first == second
  | .float first, .float second => first == second
  | .text first, .text second => first == second
  | .array first, .array second => sameItems first second
  | .object first, .object second => sameMembers first second
  | _, _ => false

def sameItems : List Value → List Value → Bool
  | [], [] => true
  | first :: firsts, second :: seconds => first.same second && sameItems firsts seconds
  | _, _ => false

def sameMembers : List (String × Value) → List (String × Value) → Bool
  | [], [] => true
  | (key, first) :: firsts, second :: seconds => key == second.1 && first.same second.2 && sameMembers firsts seconds
  | _, _ => false

end

mutual

/-- The comparison decides equality. -/
theorem Value.same_iff : ∀ first second : Value, first.same second = true ↔ first = second
  | .null, second | .boolean _, second | .integer _, second | .float _, second | .text _, second => by
    cases second <;> simp [Value.same]
  | .array items, second => by cases second <;> simp [Value.same, sameItems_iff items]
  | .object members, second => by cases second <;> simp [Value.same, sameMembers_iff members]

theorem sameItems_iff : ∀ first second : List Value, sameItems first second = true ↔ first = second
  | [], second => by cases second <;> simp [sameItems]
  | item :: items, second => by
    cases second with
    | nil => simp [sameItems]
    | cons other others => simp [sameItems, Value.same_iff item, sameItems_iff items]

theorem sameMembers_iff : ∀ first second : List (String × Value), sameMembers first second = true ↔ first = second
  | [], second => by cases second <;> simp [sameMembers]
  | (key, value) :: members, second => by
    cases second with
    | nil => simp [sameMembers]
    | cons other others => simp [sameMembers, Value.same_iff value, sameMembers_iff members, Prod.ext_iff]

end

instance : DecidableEq Value := fun first second => decidable_of_iff _ (first.same_iff second)

/-- A missing text is written as null. -/
def textOrNull : Option String → Value
  | some text => .text text
  | none => .null

/-- The value at a key, where a missing member reads as null. -/
def Value.field (value : Value) (key : String) : Value := (value.members.lookup key).getD .null

def Value.text? : Value → Option String
  | .text value => some value
  | _ => none

/-- The texts of a list of texts. -/
def Value.texts? : Value → Option (List String)
  | .array items => items.mapM Value.text?
  | _ => none

end FinanceCore.Json
