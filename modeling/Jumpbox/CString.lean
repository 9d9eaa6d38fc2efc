import Mathlib.Data.Nat.Digits.Defs

/-! C strings and the libc calls the daemon makes on them.
A C string is the list of its characters before the NUL. The scanning and
printing functions follow glibc, on which the daemon is packaged. -/

namespace Jumpbox

abbrev CStr := List Char

/-- `strcasecmp(a, b) == 0`. -/
def strcaseEq (a b : CStr) : Bool := a.map Char.toLower == b.map Char.toLower

/-- `strncasecmp(a, b, n) == 0`. -/
def strncaseEq (a b : CStr) (n : ℕ) : Bool := strcaseEq (a.take n) (b.take n)

def isspace (c : Char) : Bool := c = ' ' || ('\t' ≤ c && c ≤ '\r')

def digitVal (base : ℕ) (c : Char) : Option ℕ :=
  let value :=
    if '0' ≤ c ∧ c ≤ '9' then c.toNat - '0'.toNat
    else if 'a' ≤ c.toLower ∧ c.toLower ≤ 'z' then c.toLower.toNat - 'a'.toNat + 10
    else base
  if value < base then some value else none

def scanDigits (base : ℕ) : (width : ℕ) → (acc : ℕ) → CStr → ℕ × CStr
  | width + 1, acc, c :: s =>
    match digitVal base c with
    | some d => scanDigits base width (acc * base + d) s
    | none => (acc, c :: s)
  | _, acc, s => (acc, s)

/-- An optional sign, which counts towards the field width. -/
def scanSign (width : ℕ) : CStr → Bool × ℕ × CStr
  | '-' :: s => (true, width - 1, s)
  | '+' :: s => (false, width - 1, s)
  | s => (false, width, s)

/-- glibc steps over `0x` in a hexadecimal field; the zero counts as a digit. -/
def scanHexPrefix (width : ℕ) : CStr → Bool × ℕ × CStr
  | '0' :: c :: s =>
    if 2 ≤ width ∧ c.toLower = 'x' then (true, width - 2, s) else (false, width, '0' :: c :: s)
  | s => (false, width, s)

/-- One `%<width>lx` conversion: leading blanks are skipped and not counted, and a
field without a digit is a matching failure. -/
def scanHex (width : ℕ) (s : CStr) : Option (UInt64 × CStr) :=
  let (negative, width, s) := scanSign width (s.dropWhile isspace)
  let (zero, width, s) := scanHexPrefix width s
  let (value, rest) := scanDigits 16 width 0 s
  if zero ∨ rest.length < s.length then
    let value := UInt64.ofNat value
    some (if negative then 0 - value else value, rest)
  else none

/-- `atoi` as glibc has it: `strtol` saturates at 64 bits, the cast keeps 32. -/
def atoi (s : CStr) : ℤ :=
  let (negative, _, s) := scanSign s.length (s.dropWhile isspace)
  let value := (scanDigits 10 s.length 0 s).1
  let long : ℤ := if negative then max (-(value : ℤ)) (-2 ^ 63) else min (value : ℤ) (2 ^ 63 - 1)
  long.bmod (2 ^ 32)

theorem scanSign_plain {c : Char} (minus : c ≠ '-') (plus : c ≠ '+') (width : ℕ) (s : CStr) :
    scanSign width (c :: s) = (false, width, c :: s) := by
  unfold scanSign
  split <;> simp_all

theorem digitVal_of_isDigit {c : Char} (digit : c.isDigit) :
    digitVal 10 c = some (c.toNat - '0'.toNat) := by
  have bounds : '0'.toNat ≤ c.toNat ∧ c.toNat ≤ '9'.toNat := Char.isDigit_iff_toNat.mp digit
  have range : '0' ≤ c ∧ c ≤ '9' := bounds
  have upper : c.toNat ≤ 57 := bounds.2
  unfold digitVal
  simp only [if_pos range]
  exact if_pos (show c.toNat - 48 < 10 by omega)

theorem scanDigits_of_isDigit {s : CStr} (digits : ∀ c ∈ s, c.isDigit) (acc : ℕ) :
    scanDigits 10 s.length acc s = (Nat.ofDigitChars 10 s acc, []) := by
  induction s generalizing acc with
  | nil => rfl
  | cons c s ih =>
    have rest := ih (fun c member => digits c (List.mem_cons_of_mem _ member))
    rw [List.length_cons, scanDigits, digitVal_of_isDigit (digits c List.mem_cons_self)]
    simp only [rest, Nat.ofDigitChars_cons, Nat.mul_comm]

theorem atoi_range (s : CStr) : -2 ^ 31 ≤ atoi s ∧ atoi s < 2 ^ 31 := by
  unfold atoi
  dsimp only
  exact ⟨Int.le_bmod (by decide), Int.bmod_lt (by decide)⟩

theorem isDigit_plain {c : Char} (digit : c.isDigit) : isspace c = false ∧ c ≠ '-' ∧ c ≠ '+' := by
  have bounds : 48 ≤ c.toNat ∧ c.toNat ≤ 57 := Char.isDigit_iff_toNat.mp digit
  refine ⟨?_, ?_, ?_⟩
  · have not_space : c ≠ ' ' := by rintro rfl; revert bounds; decide
    have not_tab : ¬c ≤ '\r' := by
      intro le
      have : c.toNat ≤ 13 := le
      omega
    simp [isspace, not_space, not_tab]
  · rintro rfl; revert bounds; decide
  · rintro rfl; revert bounds; decide

theorem atoi_toDigits {n : ℕ} (small : n < 2 ^ 31) : atoi (Nat.toDigits 10 n) = n := by
  have digits : ∀ c ∈ Nat.toDigits 10 n, c.isDigit := fun c member =>
    Nat.isDigit_of_mem_toDigits (by decide) (by decide) member
  have value : Nat.ofDigitChars 10 (Nat.toDigits 10 n) 0 = n := Nat.ofDigitChars_ten_toDigits
  obtain ⟨c, s, text⟩ := List.exists_cons_of_ne_nil (Nat.toDigits_ne_nil (b := 10) (n := n))
  rw [text] at digits value ⊢
  obtain ⟨space, minus, plus⟩ := isDigit_plain (digits c List.mem_cons_self)
  have scanned := scanDigits_of_isDigit digits 0
  rw [value] at scanned
  unfold atoi
  rw [List.dropWhile_cons_of_neg (by simp [space]), scanSign_plain minus plus]
  simp only [scanned, Bool.false_eq_true, if_false]
  rw [min_eq_left (by omega)]
  exact Int.bmod_eq_of_le (by omega) (by omega)

def printU32 (n : ℤ) : CStr := Nat.toDigits 10 (n % 2 ^ 32).toNat

def hexDigit (d : ℕ) : Char := "0123456789abcdef".toList.getD d '0'

/-- `%0<width>lx`. -/
def printHex (width : ℕ) (n : UInt64) : CStr :=
  ((Nat.digits 16 n.toNat).reverse.map hexDigit).leftpad width '0'

example : scanHex 9 "00000000a00000001f".toList = some (10, "00000001f".toList) := by decide
example : atoi "200 OK".toList = 200 := by decide

end Jumpbox
