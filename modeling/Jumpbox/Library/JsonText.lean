import Mathlib.Algebra.Field.Rat
import Mathlib.Data.List.TakeDrop
import Mathlib.Data.Rat.Cast.Defs
import Mathlib.Tactic.FinCases

/-! JSON texts, as ECMA-404 has them: a reader, and flat objects printed with any
spacing, which it reads back. A lone half of a surrogate pair is no character and is not
read. -/

namespace JsonText

inductive Value
  | null
  | bool (b : Bool)
  | number (q : ℚ)
  | string (s : List Char)
  | array (items : List Value)
  | object (fields : List (List Char × Value))
  deriving Inhabited

/-- The last member of a name counts. -/
def Value.get (name : List Char) : Value → Option Value
  | .object fields => (fields.reverse.find? fun field => field.1 = name).map Prod.snd
  | _ => none

def isSpace (c : Char) : Bool := c = ' ' || c = '\t' || c = '\n' || c = '\r'

def skip (text : List Char) : List Char := text.dropWhile isSpace

/-! Strings. -/

def hexVal (c : Char) : Option ℕ :=
  if c.isDigit then some (c.toNat - 48)
  else if 'a' ≤ c ∧ c ≤ 'f' then some (c.toNat - 87)
  else if 'A' ≤ c ∧ c ≤ 'F' then some (c.toNat - 55)
  else none

def shortEscapes : List (Char × Char) :=
  [('"', '"'), ('\\', '\\'), ('\x08', 'b'), ('\x0c', 'f'), ('\n', 'n'), ('\r', 'r'), ('\t', 't')]

def escaped : List Char → Option (Char × List Char)
  | 'u' :: a :: b :: c :: d :: rest => do
    let a ← hexVal a
    let b ← hexVal b
    let c ← hexVal c
    let d ← hexVal d
    let code := ((a * 16 + b) * 16 + c) * 16 + d
    if code.isValidChar then some (Char.ofNat code, rest) else none
  | '/' :: rest => some ('/', rest)
  | c :: rest => (shortEscapes.find? fun escape => escape.2 = c).map fun escape => (escape.1, rest)
  | [] => none

def chars : ℕ → List Char → Option (List Char × List Char)
  | 0, _ => none
  | _ + 1, [] => none
  | fuel + 1, c :: text =>
    if c = '"' then some ([], text)
    else if c = '\\' then do
      let (c, text) ← escaped text
      let (s, text) ← chars fuel text
      some (c :: s, text)
    else if c.toNat < 32 then none
    else do
      let (s, text) ← chars fuel text
      some (c :: s, text)

def string (text : List Char) : Option (List Char × List Char) := chars (text.length + 1) text

/-! Numbers. -/

def exponent : List Char → Option (ℤ × List Char)
  | c :: text =>
    if c = 'e' ∨ c = 'E' then
      let (sign, text) := match text with
        | '-' :: text => (-1, text)
        | '+' :: text => (1, text)
        | text => ((1 : ℤ), text)
      let (digits, text) := text.span Char.isDigit
      if digits = [] then none else some (sign * Nat.ofDigitChars 10 digits 0, text)
    else some (0, c :: text)
  | [] => some (0, [])

def fraction : List Char → Option (List Char × List Char)
  | '.' :: text =>
    let (digits, text) := text.span Char.isDigit
    if digits = [] then none else some (digits, text)
  | text => some ([], text)

def unsigned (text : List Char) : Option (ℚ × List Char) := do
  let (whole, text) := text.span Char.isDigit
  if whole = [] ∨ (whole.head? = some '0' ∧ 1 < whole.length) then none else
  let (digits, text) ← fraction text
  let (e, text) ← exponent text
  some ((Nat.ofDigitChars 10 (whole ++ digits) 0 : ℚ) * 10 ^ (e - digits.length), text)

def number : List Char → Option (ℚ × List Char)
  | '-' :: text => (unsigned text).map fun (q, text) => (-q, text)
  | text => unsigned text

/-! Values. -/

section
variable {α : Type}

def items (close : Char) (read : List Char → Option (α × List Char)) :
    ℕ → List Char → Option (List α × List Char)
  | 0, _ => none
  | fuel + 1, text => do
    let (item, text) ← read text
    match skip text with
    | [] => none
    | c :: text =>
      if c = close then some ([item], text)
      else if c = ',' then do
        let (others, text) ← items close read fuel text
        some (item :: others, text)
      else none

def list (close : Char) (read : List Char → Option (α × List Char)) (text : List Char) :
    Option (List α × List Char) :=
  match skip text with
  | [] => none
  | c :: rest => if c = close then some ([], rest) else items close read (text.length + 1) text

def field (read : List Char → Option (α × List Char)) (text : List Char) :
    Option ((List Char × α) × List Char) :=
  match skip text with
  | '"' :: text => do
    let (name, text) ← string text
    match skip text with
    | ':' :: text => do
      let (v, text) ← read text
      some ((name, v), text)
    | _ => none
  | _ => none

end

def word (name : List Char) (v : Value) (text : List Char) : Option (Value × List Char) :=
  if name.isPrefixOf text then some (v, text.drop name.length) else none

/-- The value at the front of a text; `fuel` bounds how deep values nest. -/
def value : ℕ → List Char → Option (Value × List Char)
  | 0, _ => none
  | fuel + 1, text =>
    match skip text with
    | [] => none
    | c :: rest =>
      if c = '"' then (string rest).map fun (s, text) => (.string s, text)
      else if c = '\x7b' then
        (list '\x7d' (field (value fuel)) rest).map fun (fields, text) => (.object fields, text)
      else if c = '[' then
        (list ']' (value fuel) rest).map fun (items, text) => (.array items, text)
      else if c = 'n' then word "null".toList .null (c :: rest)
      else if c = 't' then word "true".toList (.bool true) (c :: rest)
      else if c = 'f' then word "false".toList (.bool false) (c :: rest)
      else (number (c :: rest)).map fun (q, text) => (.number q, text)

/-- `JSON.parse`; the text is one value, with nothing but space around it. -/
def parse (text : List Char) : Option Value :=
  match value (text.length + 1) text with
  | some (v, rest) => if skip rest = [] then some v else none
  | none => none

/-! Printing. -/

def hexChar (n : ℕ) : Char := "0123456789abcdef".toList.getD n '0'

def quoteChar (c : Char) : List Char :=
  match shortEscapes.find? fun escape => escape.1 = c with
  | some escape => ['\\', escape.2]
  | none =>
    if c.toNat < 32 then ['\\', 'u', '0', '0', hexChar (c.toNat / 16), hexChar (c.toNat % 16)]
    else [c]

def quote (s : List Char) : List Char := s.flatMap quoteChar

inductive Scalar
  | bool (b : Bool)
  | string (s : List Char)
  | nat (n : ℕ)
  deriving DecidableEq

namespace Scalar

def value : Scalar → Value
  | bool b => .bool b
  | string s => .string s
  | nat n => .number n

def print : Scalar → List Char
  | bool true => "true".toList
  | bool false => "false".toList
  | string s => '"' :: quote s ++ ['"']
  | nat n => Nat.toDigits 10 n

end Scalar

structure Layout where
  opening : List Char
  colon : List Char
  comma : List Char
  opening_space : opening.all isSpace
  colon_space : colon.all isSpace
  comma_space : comma.all isSpace

theorem nothing_space : ([] : List Char).all isSpace := rfl

theorem blank_space : " ".toList.all isSpace := rfl

def compact : Layout where
  opening := []
  colon := []
  comma := []
  opening_space := nothing_space
  colon_space := nothing_space
  comma_space := nothing_space

def printMember (l : Layout) (member : List Char × Scalar) : List Char :=
  '"' :: quote member.1 ++ '"' :: ':' :: l.colon ++ member.2.print

def printMembers (l : Layout) : List (List Char × Scalar) → List Char
  | [] => []
  | [member] => printMember l member
  | member :: members => printMember l member ++ ',' :: l.comma ++ printMembers l members

def print (l : Layout) (members : List (List Char × Scalar)) : List Char :=
  '\x7b' :: l.opening ++ printMembers l members ++ ['\x7d']

def object (members : List (List Char × Scalar)) : Value :=
  .object (members.map fun member => (member.1, member.2.value))

/-! Reading back what was printed. -/

theorem skip_append {space text : List Char} (blank : ∀ c ∈ space, isSpace c) :
    skip (space ++ text) = skip text := by
  rw [skip, List.dropWhile_append_of_pos blank, skip]

theorem skip_cons {c : Char} (mark : isSpace c = false) (text : List Char) :
    skip (c :: text) = c :: text := by
  simp [skip, mark]

theorem escaped_short : ∀ escape ∈ shortEscapes, ∀ text : List Char,
    escaped (escape.2 :: text) = some (escape.1, text) := by
  intro escape member text
  fin_cases member <;> rfl

theorem hexVal_hexChar : ∀ n < 16, hexVal (hexChar n) = some n := by decide

theorem escaped_unicode {c : Char} (control : c.toNat < 32) (text : List Char) :
    escaped ('u' :: '0' :: '0' :: hexChar (c.toNat / 16) :: hexChar (c.toNat % 16) :: text) =
      some (c, text) := by
  have high := hexVal_hexChar (c.toNat / 16) (by omega)
  have low := hexVal_hexChar (c.toNat % 16) (by omega)
  have zero : hexVal '0' = some 0 := by decide
  have code : ((0 * 16 + 0) * 16 + c.toNat / 16) * 16 + c.toNat % 16 = c.toNat := by omega
  have valid : c.toNat.isValidChar := c.valid
  simp only [escaped, zero, high, low, Option.bind_eq_bind, Option.bind_some, code]
  rw [if_pos valid, Char.ofNat_toNat]

theorem chars_quoteChar (fuel : ℕ) (c : Char) (text : List Char) :
    chars (fuel + 1) (quoteChar c ++ text) =
      (chars fuel text).map fun (s, text) => (c :: s, text) := by
  have bind (read : Option (List Char × List Char)) :
      (do let (s, text) ← read; some (c :: s, text)) =
        read.map fun (s, text) => (c :: s, text) := by
    cases read <;> rfl
  unfold quoteChar
  split
  next escape found =>
    have short := escaped_short escape (List.mem_of_find?_eq_some found) text
    have same : escape.1 = c := by simpa using List.find?_some found
    rw [same] at short
    simp only [List.cons_append, List.nil_append, chars, short, Option.bind_eq_bind,
      Option.bind_some]
    exact bind _
  next missing =>
    split
    next control =>
      simp only [List.cons_append, List.nil_append, chars, escaped_unicode control,
        Option.bind_eq_bind, Option.bind_some]
      exact bind _
    next visible =>
      have absent := List.find?_eq_none.mp missing
      have not_quote : c ≠ '"' := by
        rintro rfl
        exact absent ('"', '"') (by decide) (by decide)
      have not_backslash : c ≠ '\\' := by
        rintro rfl
        exact absent ('\\', '\\') (by decide) (by decide)
      simp only [List.cons_append, List.nil_append, chars, not_quote, not_backslash, visible,
        if_false]
      exact bind _

theorem quoteChar_ne_nil (c : Char) : quoteChar c ≠ [] := by
  unfold quoteChar
  split
  · exact List.cons_ne_nil _ _
  · split <;> exact List.cons_ne_nil _ _

theorem length_le_quote (s : List Char) : s.length ≤ (quote s).length := by
  induction s with
  | nil => exact le_rfl
  | cons c s ih =>
    have one : 0 < (quoteChar c).length := List.length_pos_iff.mpr (quoteChar_ne_nil c)
    simp only [quote, List.flatMap_cons, List.length_cons, List.length_append] at ih ⊢
    omega

theorem chars_quote (s text : List Char) {fuel : ℕ} (enough : s.length < fuel) :
    chars fuel (quote s ++ '"' :: text) = some (s, text) := by
  induction s generalizing fuel with
  | nil =>
    obtain ⟨fuel, rfl⟩ := Nat.exists_eq_succ_of_ne_zero (Nat.ne_of_gt enough)
    rfl
  | cons c s ih =>
    obtain ⟨fuel, rfl⟩ := Nat.exists_eq_succ_of_ne_zero (Nat.ne_zero_of_lt enough)
    have rest := ih (Nat.lt_of_succ_lt_succ enough)
    rw [quote, List.flatMap_cons, List.append_assoc, chars_quoteChar]
    rw [quote] at rest
    rw [rest]
    rfl

theorem string_quote (s text : List Char) : string (quote s ++ '"' :: text) = some (s, text) := by
  have short := length_le_quote s
  refine chars_quote s text ?_
  simp only [List.length_append, List.length_cons]
  omega

def Ends (text : List Char) : Prop :=
  ∀ c ∈ text.head?, c.isDigit = false ∧ c ≠ '.' ∧ c ≠ 'e' ∧ c ≠ 'E'

theorem span_digits {digits text : List Char} (all : ∀ c ∈ digits, c.isDigit) (ends : Ends text) :
    (digits ++ text).span Char.isDigit = (digits, text) := by
  have nothing : text.takeWhile Char.isDigit = [] ∧ text.dropWhile Char.isDigit = text := by
    cases text with
    | nil => exact ⟨rfl, rfl⟩
    | cons c text =>
      have other := (ends c rfl).1
      simp [other]
  rw [List.span_eq_takeWhile_dropWhile, List.takeWhile_append_of_pos all,
    List.dropWhile_append_of_pos all, nothing.1, nothing.2, List.append_nil]

theorem ofDigitChars_lt {digits : List Char} (all : ∀ c ∈ digits, c.isDigit) :
    Nat.ofDigitChars 10 digits 0 < 10 ^ digits.length := by
  induction digits with
  | nil => exact Nat.one_pos
  | cons c digits ih =>
    have small : c.toNat ≤ 57 := (Char.isDigit_iff_toNat.mp (all c List.mem_cons_self)).2
    have rest := ih fun c member => all c (List.mem_cons_of_mem _ member)
    rw [Nat.ofDigitChars_cons, Nat.ofDigitChars_eq_ofDigitChars_zero, List.length_cons, pow_succ]
    have digit : 10 * 0 + (c.toNat - '0'.toNat) ≤ 9 := by
      have zero : '0'.toNat = 48 := rfl
      omega
    have scaled := Nat.mul_le_mul_left (10 ^ digits.length) digit
    omega

theorem toDigits_plain (n : ℕ) :
    ¬((Nat.toDigits 10 n).head? = some '0' ∧ 1 < (Nat.toDigits 10 n).length) := by
  rintro ⟨zero, long⟩
  have all : ∀ c ∈ Nat.toDigits 10 n, c.isDigit := fun c member =>
    Nat.isDigit_of_mem_toDigits (by decide) (by decide) member
  have value : Nat.ofDigitChars 10 (Nat.toDigits 10 n) 0 = n := Nat.ofDigitChars_ten_toDigits
  cases text : Nat.toDigits 10 n with
  | nil => exact Nat.toDigits_ne_nil text
  | cons c digits =>
    rw [text] at zero long all value
    obtain rfl : c = '0' := Option.some.inj zero
    have small : Nat.ofDigitChars 10 digits 0 < 10 ^ digits.length :=
      ofDigitChars_lt fun c member => all c (List.mem_cons_of_mem _ member)
    have same : Nat.ofDigitChars 10 digits 0 = n := value
    have short : (Nat.toDigits 10 n).length ≤ digits.length :=
      (Nat.length_toDigits_le_iff (by decide) (Nat.lt_of_succ_lt_succ long)).mpr (same ▸ small)
    rw [text, List.length_cons] at short
    omega

theorem number_toDigits (n : ℕ) {text : List Char} (ends : Ends text) :
    number (Nat.toDigits 10 n ++ text) = some ((n : ℚ), text) := by
  have all : ∀ c ∈ Nat.toDigits 10 n, c.isDigit := fun c member =>
    Nat.isDigit_of_mem_toDigits (by decide) (by decide) member
  have positive : number (Nat.toDigits 10 n ++ text) = unsigned (Nat.toDigits 10 n ++ text) := by
    cases digits : Nat.toDigits 10 n with
    | nil => exact absurd digits Nat.toDigits_ne_nil
    | cons c digits' =>
      have digit := all c (digits ▸ List.mem_cons_self)
      have sign : c ≠ '-' := by rintro rfl; exact absurd digit (by decide)
      unfold number
      split
      next _ same => exact absurd (List.cons.inj same).1 sign
      next => rfl
  have no_fraction : fraction text = some ([], text) := by
    unfold fraction
    split
    next => exact absurd rfl (ends '.' rfl).2.1
    next => rfl
  have no_exponent : exponent text = some (0, text) := by
    cases text with
    | nil => rfl
    | cons c text =>
      have other := (ends c rfl).2.2
      simp [exponent, other.1, other.2]
  have whole : ¬(Nat.toDigits 10 n = [] ∨
      ((Nat.toDigits 10 n).head? = some '0' ∧ 1 < (Nat.toDigits 10 n).length)) := by
    rintro (none | zero)
    · exact Nat.toDigits_ne_nil none
    · exact toDigits_plain n zero
  have value : Nat.ofDigitChars 10 (Nat.toDigits 10 n) 0 = n := Nat.ofDigitChars_ten_toDigits
  rw [positive, unsigned, span_digits all ends]
  simp only [if_neg whole, no_fraction, no_exponent, Option.bind_eq_bind, Option.bind_some,
    List.append_nil, value]
  simp

theorem value_print (fuel : ℕ) (scalar : Scalar) {text : List Char} (ends : Ends text)
    {space : List Char} (blank : ∀ c ∈ space, isSpace c) :
    value (fuel + 1) (space ++ (scalar.print ++ text)) = some (scalar.value, text) := by
  rw [value, skip_append blank]
  cases scalar with
  | bool b => cases b <;> rfl
  | string s =>
    have read := string_quote s text
    simp only [Scalar.print, List.cons_append, List.append_assoc, List.nil_append,
      skip_cons (show isSpace '"' = false by decide), if_true, read, Option.map_some, Scalar.value]
  | nat n =>
    have read := number_toDigits n ends
    rw [Scalar.print]
    cases digits : Nat.toDigits 10 n with
    | nil => exact absurd digits Nat.toDigits_ne_nil
    | cons c digits' =>
      have digit : c.isDigit :=
        Nat.isDigit_of_mem_toDigits (by decide) (by decide) (digits ▸ List.mem_cons_self)
      rw [digits] at read
      have differs {other : Char} (letter : other.isDigit = false) : c ≠ other := by
        rintro rfl
        exact absurd (letter.symm.trans digit) Bool.false_ne_true
      have mark : isSpace c = false := by
        simp [isSpace, differs (show ' '.isDigit = false by decide),
          differs (show '\t'.isDigit = false by decide),
          differs (show '\n'.isDigit = false by decide),
          differs (show '\r'.isDigit = false by decide)]
      rw [List.cons_append] at read ⊢
      rw [skip_cons mark]
      simp only [differs (show '"'.isDigit = false by decide),
        differs (show '\x7b'.isDigit = false by decide),
        differs (show '['.isDigit = false by decide),
        differs (show 'n'.isDigit = false by decide),
        differs (show 't'.isDigit = false by decide),
        differs (show 'f'.isDigit = false by decide), if_false, read, Option.map_some,
        Scalar.value]

theorem ends_mark {c : Char} (mark : c = ',' ∨ c = '\x7d') (text : List Char) :
    Ends (c :: text) := by
  rintro _ ⟨⟩
  rcases mark with rfl | rfl <;> decide

section
variable (l : Layout)

def member (m : List Char × Scalar) : List Char × Value := (m.1, m.2.value)

theorem field_printMember (fuel : ℕ) (m : List Char × Scalar) {space text : List Char}
    (blank : ∀ c ∈ space, isSpace c) (ends : Ends text) :
    field (value (fuel + 1)) (space ++ (printMember l m ++ text)) = some (member m, text) := by
  have name := string_quote m.1 (':' :: (l.colon ++ (m.2.print ++ text)))
  have scalar := value_print fuel m.2 ends (List.all_eq_true.mp l.colon_space)
  unfold field
  rw [skip_append blank]
  simp only [printMember, List.cons_append, List.append_assoc, Option.bind_eq_bind,
    skip_cons (show isSpace '"' = false by decide), name, Option.bind_some,
    skip_cons (show isSpace ':' = false by decide), scalar]
  rfl

theorem items_printMembers (fuel : ℕ) {members : List (List Char × Scalar)}
    (some_member : members ≠ []) (text : List Char) {space : List Char}
    (blank : ∀ c ∈ space, isSpace c) {n : ℕ} (enough : members.length ≤ n) :
    items '\x7d' (field (value (fuel + 1))) n
        (space ++ (printMembers l members ++ '\x7d' :: text)) =
      some (members.map member, text) := by
  induction members generalizing n space with
  | nil => exact absurd rfl some_member
  | cons m members ih =>
    obtain ⟨n, rfl⟩ := Nat.exists_eq_succ_of_ne_zero (Nat.ne_zero_of_lt enough)
    cases members with
    | nil =>
      have read := field_printMember l fuel m blank (ends_mark (.inr rfl) text)
      simp only [items, printMembers, read, Option.bind_eq_bind, Option.bind_some,
        skip_cons (show isSpace '\x7d' = false by decide), if_true, List.map_cons, List.map_nil]
    | cons m' members =>
      have others := ih (List.cons_ne_nil _ _) (List.all_eq_true.mp l.comma_space)
        (Nat.le_of_succ_le_succ enough)
      have read := field_printMember l fuel m blank (ends_mark (.inl rfl)
        (l.comma ++ (printMembers l (m' :: members) ++ '\x7d' :: text)))
      have comma : ',' ≠ '\x7d' := by decide
      simp only [items, printMembers, List.append_assoc, List.cons_append, read,
        Option.bind_eq_bind, Option.bind_some, skip_cons (show isSpace ',' = false by decide),
        comma, if_false, if_true]
      rw [others]
      rfl

theorem list_printMembers (fuel : ℕ) (members : List (List Char × Scalar)) (text : List Char) :
    list '\x7d' (field (value (fuel + 1)))
        (l.opening ++ (printMembers l members ++ '\x7d' :: text)) =
      some (members.map member, text) := by
  have enough : members.length ≤ (printMembers l members).length := by
    induction members with
    | nil => exact Nat.zero_le _
    | cons m members ih =>
      cases members with
      | nil =>
        simp only [printMembers, printMember, List.length_cons, List.length_nil, List.cons_append]
        omega
      | cons m' members =>
        simp only [printMembers, List.length_append, List.length_cons] at ih ⊢
        omega
  unfold list
  rw [skip_append (List.all_eq_true.mp l.opening_space)]
  cases members with
  | nil => simp [printMembers, skip_cons (show isSpace '\x7d' = false by decide)]
  | cons m members =>
    have head : ∃ more, printMembers l (m :: members) ++ '\x7d' :: text = '"' :: more := by
      cases members with
      | nil => exact ⟨_, rfl⟩
      | cons => exact ⟨_, rfl⟩
    have read := items_printMembers l fuel (List.cons_ne_nil m members) text
      (List.all_eq_true.mp l.opening_space)
      (n := (l.opening ++ (printMembers l (m :: members) ++ '\x7d' :: text)).length + 1)
      (by simp only [List.length_append, List.length_cons] at enough ⊢; omega)
    obtain ⟨more, same⟩ := head
    rw [same] at read ⊢
    rw [skip_cons (by decide)]
    exact read

theorem parse_print (members : List (List Char × Scalar)) :
    parse (print l members) = some (object members) := by
  have long : ∃ fuel, (print l members).length + 1 = fuel + 2 := by
    refine ⟨(l.opening ++ printMembers l members ++ ['\x7d']).length, ?_⟩
    simp only [print, List.length_cons, List.cons_append]
  obtain ⟨fuel, enough⟩ := long
  have read := list_printMembers l fuel members []
  have brace : '\x7b' ≠ '"' := by decide
  unfold parse
  rw [enough, value]
  simp only [print, List.cons_append, List.append_assoc, if_true, brace, if_false,
    skip_cons (show isSpace '\x7b' = false by decide), read, Option.map_some]
  rfl

end

-- what a text denotes is known from `parse_print`
attribute [irreducible] parse

/-! Strings that stand for themselves between quotes. -/

def Plain (s : List Char) : Prop := ∀ c ∈ s, c ≠ '"' ∧ c ≠ '\\' ∧ 32 ≤ c.toNat

instance (s : List Char) : Decidable (Plain s) :=
  List.decidableBAll (fun c => c ≠ '"' ∧ c ≠ '\\' ∧ 32 ≤ c.toNat) s

theorem Plain.append {s t : List Char} (hs : Plain s) (ht : Plain t) : Plain (s ++ t) := by
  intro c member
  exact (List.mem_append.mp member).elim (hs c) (ht c)

theorem quote_plain {s : List Char} (plain : Plain s) : quote s = s := by
  induction s with
  | nil => rfl
  | cons c s ih =>
    obtain ⟨mark, backslash, visible⟩ := plain c List.mem_cons_self
    have short : (shortEscapes.find? fun escape => escape.1 = c) = none := by
      refine List.find?_eq_none.mpr fun escape listed same => ?_
      obtain rfl : escape.1 = c := of_decide_eq_true same
      revert mark backslash visible
      fin_cases listed <;> decide
    have self : quoteChar c = [c] := by
      rw [quoteChar, short]
      exact if_neg (by omega)
    rw [quote, List.flatMap_cons, self]
    exact congrArg (c :: ·) (ih fun c member => plain c (List.mem_cons_of_mem _ member))

end JsonText
