import Jumpbox.Libfutil
import Mathlib.Data.Nat.Digits.Lemmas

/-! The `DJB-SeqNo` header: how `djb_handle_forward` prints it and how
`djb_find_req_dh` reads it back. -/

namespace Jumpbox

def printSeqNo (key : Key) : CStr := printHex 9 key.1 ++ printHex 9 key.2

/-- `sscanf(dh->seqno, "%09lx%09lx", &id, &reqid) == 2`. -/
def scanSeqNo (seqno : CStr) : Option Key := do
  let (id, rest) ← scanHex 9 seqno
  let (reqid, _) ← scanHex 9 rest
  pure (id, reqid)

example : printSeqNo (7, 300) = "00000000700000012c".toList := by decide
example : scanSeqNo "00000000700000012c".toList = some (7, 300) := by decide
example : scanSeqNo "000000007".toList = none := by decide

/-! Printed numbers are lists of hexadecimal digits, and what a scan makes of such a
list depends on the digits within its field alone. -/

def hexText (ds : List ℕ) : CStr := ds.map hexDigit

def hexValue (ds : List ℕ) : ℕ := Nat.ofDigits 16 ds.reverse

/-- The digits of `%0<width>lx`. -/
def hexDigits (width : ℕ) (n : UInt64) : List ℕ := (Nat.digits 16 n.toNat).reverse.leftpad width 0

theorem printHex_eq_hexText (width : ℕ) (n : UInt64) :
    printHex width n = hexText (hexDigits width n) := by
  simp [printHex, hexText, hexDigits, List.leftpad, hexDigit]

theorem hexDigits_lt (width : ℕ) (n : UInt64) : ∀ d ∈ hexDigits width n, d < 16 := by
  intro d member
  simp only [hexDigits, List.leftpad, List.mem_append, List.mem_replicate,
    List.mem_reverse] at member
  rcases member with ⟨_, rfl⟩ | digit
  · decide
  · exact Nat.digits_lt_base (by decide) digit

theorem hexValue_hexDigits (width : ℕ) (n : UInt64) : hexValue (hexDigits width n) = n.toNat := by
  simp [hexValue, hexDigits, List.leftpad, Nat.ofDigits_append, Nat.ofDigits_digits]

theorem length_hexDigits (width : ℕ) (n : UInt64) (small : n.toNat < 16 ^ width) :
    (hexDigits width n).length = width := by
  have short := (Nat.digits_length_le_iff (by decide) n.toNat).mpr small
  simp only [hexDigits, List.leftpad, List.length_append, List.length_replicate,
    List.length_reverse]
  omega

theorem digitVal_hexDigit {d : ℕ} (small : d < 16) : digitVal 16 (hexDigit d) = some d := by
  interval_cases d <;> decide

theorem hexDigit_plain {d : ℕ} (small : d < 16) :
    isspace (hexDigit d) = false ∧ hexDigit d ≠ '-' ∧ hexDigit d ≠ '+' ∧
      (hexDigit d).toLower ≠ 'x' := by
  interval_cases d <;> decide

theorem hexValue_cons (d : ℕ) (ds : List ℕ) :
    hexValue (d :: ds) = d * 16 ^ ds.length + hexValue ds := by
  simp only [hexValue, List.reverse_cons, Nat.ofDigits_append, Nat.ofDigits_singleton,
    List.length_reverse]
  ring

theorem hexValue_lt {ds : List ℕ} (small : ∀ d ∈ ds, d < 16) : hexValue ds < 16 ^ ds.length := by
  rw [← List.length_reverse]
  exact Nat.ofDigits_lt_base_pow_length (by decide) (by simpa using small)

theorem scanDigits_hexText {ds : List ℕ} (small : ∀ d ∈ ds, d < 16) (width acc : ℕ) :
    scanDigits 16 width acc (hexText ds) =
      (acc * 16 ^ (ds.take width).length + hexValue (ds.take width), hexText (ds.drop width)) := by
  induction ds generalizing width acc with
  | nil => cases width <;> simp [hexText, scanDigits, hexValue]
  | cons d ds ih =>
    cases width with
    | zero => simp [hexText, scanDigits, hexValue]
    | succ width =>
      have digit := digitVal_hexDigit (small d (by simp))
      have tail := ih (fun d member => small d (by simp [member])) width (acc * 16 + d)
      have split : hexText (d :: ds) = hexDigit d :: hexText ds := rfl
      rw [split, scanDigits, digit]
      simp only [tail, List.take_succ_cons, List.drop_succ_cons, List.length_cons, hexValue_cons,
        pow_succ]
      congr 1
      ring

theorem scanHexPrefix_hexText {ds : List ℕ} (small : ∀ d ∈ ds, d < 16) (width : ℕ) :
    scanHexPrefix width (hexText ds) = (false, width, hexText ds) := by
  unfold scanHexPrefix
  split
  next c s text =>
    have member : c ∈ hexText ds := by simp [text]
    obtain ⟨d, inside, rfl⟩ := List.mem_map.mp member
    have plain := (hexDigit_plain (small d inside)).2.2.2
    rw [if_neg (fun prefixed => plain prefixed.2), text]
  next => rfl

theorem scanHex_hexText {ds : List ℕ} (small : ∀ d ∈ ds, d < 16) (some_digit : ds ≠ []) (width : ℕ)
    (wide : 0 < width) :
    scanHex width (hexText ds) =
      some (UInt64.ofNat (hexValue (ds.take width)), hexText (ds.drop width)) := by
  obtain ⟨d, tail, rfl⟩ := List.exists_cons_of_ne_nil some_digit
  obtain ⟨space, minus, plus, _⟩ := hexDigit_plain (small d (by simp))
  have blanks : (hexText (d :: tail)).dropWhile isspace = hexText (d :: tail) := by
    simp [hexText, space]
  have sign : scanSign width (hexText (d :: tail)) = (false, width, hexText (d :: tail)) :=
    scanSign_plain minus plus width _
  unfold scanHex
  rw [blanks, sign]
  dsimp only
  rw [scanHexPrefix_hexText small]
  dsimp only
  rw [scanDigits_hexText small]
  simp [hexText, Nat.ne_of_gt wide]

theorem toNat_field {ds : List ℕ} (small : ∀ d ∈ ds, d < 16) :
    (UInt64.ofNat (hexValue (ds.take 9))).toNat = hexValue (ds.take 9) ∧
      hexValue (ds.take 9) < 2 ^ 36 := by
  have taken : ∀ d ∈ ds.take 9, d < 16 := fun d member => small d (List.mem_of_mem_take member)
  have value := hexValue_lt taken
  have digits : (16 : ℕ) ^ (ds.take 9).length ≤ 16 ^ 9 :=
    Nat.pow_le_pow_right (by decide) (List.length_take_le 9 ds)
  have bound : hexValue (ds.take 9) < 2 ^ 36 := by omega
  exact ⟨UInt64.toNat_ofNat_of_lt' (by rw [UInt64.size]; omega), bound⟩

theorem scanSeqNo_hexText_lt {ds : List ℕ} (small : ∀ d ∈ ds, d < 16) {key : Key}
    (scanned : scanSeqNo (hexText ds) = some key) :
    key.1.toNat < 2 ^ 36 ∧ key.2.toNat < 2 ^ 36 := by
  have later : ∀ d ∈ ds.drop 9, d < 16 := fun d member => small d (List.mem_of_mem_drop member)
  by_cases no_first : ds = []
  · rw [no_first] at scanned
    cases scanned
  by_cases no_second : ds.drop 9 = []
  · rw [scanSeqNo, scanHex_hexText small no_first 9 (by decide), no_second] at scanned
    cases scanned
  · rw [scanSeqNo, scanHex_hexText small no_first 9 (by decide)] at scanned
    simp only [Option.bind_eq_bind, Option.bind_some] at scanned
    rw [scanHex_hexText later no_second 9 (by decide)] at scanned
    obtain rfl := Option.some.inj scanned
    have first := toNat_field small
    have second := toNat_field later
    dsimp only
    exact ⟨by rw [first.1]; exact first.2, by rw [second.1]; exact second.2⟩

theorem printSeqNo_eq_hexText (key : Key) :
    printSeqNo key = hexText (hexDigits 9 key.1 ++ hexDigits 9 key.2) := by
  simp [printSeqNo, printHex_eq_hexText, hexText]

theorem scanSeqNo_printSeqNo {key : Key} (first : key.1.toNat < 2 ^ 36)
    (second : key.2.toNat < 2 ^ 36) : scanSeqNo (printSeqNo key) = some key := by
  have long₁ := length_hexDigits 9 key.1 first
  have long₂ := length_hexDigits 9 key.2 second
  have small₁ := hexDigits_lt 9 key.1
  have small₂ := hexDigits_lt 9 key.2
  have small : ∀ d ∈ hexDigits 9 key.1 ++ hexDigits 9 key.2, d < 16 :=
    List.forall_mem_append.mpr ⟨small₁, small₂⟩
  have some_first : hexDigits 9 key.1 ++ hexDigits 9 key.2 ≠ [] := by
    simp [← List.length_eq_zero_iff, long₁]
  have some_second : hexDigits 9 key.2 ≠ [] := by
    simp [← List.length_eq_zero_iff, long₂]
  have front : (hexDigits 9 key.1 ++ hexDigits 9 key.2).take 9 = hexDigits 9 key.1 :=
    List.take_left' long₁
  have back : (hexDigits 9 key.1 ++ hexDigits 9 key.2).drop 9 = hexDigits 9 key.2 :=
    List.drop_left' long₁
  have whole : (hexDigits 9 key.2).take 9 = hexDigits 9 key.2 :=
    List.take_of_length_le long₂.le
  rw [printSeqNo_eq_hexText, scanSeqNo, scanHex_hexText small some_first 9 (by decide), front, back]
  simp only [Option.bind_eq_bind, Option.bind_some]
  rw [scanHex_hexText small₂ some_second 9 (by decide), whole]
  simp [hexValue_hexDigits]

theorem length_printSeqNo {key : Key} (first : key.1.toNat < 2 ^ 36)
    (second : key.2.toNat < 2 ^ 36) : (printSeqNo key).length = 18 := by
  rw [printSeqNo_eq_hexText, hexText, List.length_map, List.length_append,
    length_hexDigits 9 key.1 first, length_hexDigits 9 key.2 second]

theorem lt_of_scanSeqNo_prefix {text : CStr} {key printed : Key}
    (front : text <+: printSeqNo printed) (scanned : scanSeqNo text = some key) :
    key.1.toNat < 2 ^ 36 ∧ key.2.toNat < 2 ^ 36 := by
  rw [printSeqNo_eq_hexText] at front
  have cut :
      text = hexText ((hexDigits 9 printed.1 ++ hexDigits 9 printed.2).take text.length) := by
    rw [hexText, List.map_take]
    exact List.prefix_iff_eq_take.mp front
  rw [cut] at scanned
  refine scanSeqNo_hexText_lt (fun d member => ?_) scanned
  rcases List.mem_append.mp (List.mem_of_mem_take member) with digit | digit
  · exact hexDigits_lt 9 _ d digit
  · exact hexDigits_lt 9 _ d digit

/-- Scanning undoes printing exactly for numbers below `2 ^ 36`, and these are printed in one
length and never alike. -/
theorem scanSeqNo_printSeqNo_iff (a b : Key) :
    (scanSeqNo (printSeqNo a) = some a ↔ a.1.toNat < 2 ^ 36 ∧ a.2.toNat < 2 ^ 36) ∧
      (a.1.toNat < 2 ^ 36 ∧ a.2.toNat < 2 ^ 36 → b.1.toNat < 2 ^ 36 ∧ b.2.toNat < 2 ^ 36 →
        (printSeqNo a).length = 18 ∧ (a ≠ b → printSeqNo a ≠ printSeqNo b)) := by
  refine ⟨⟨fun scanned => ?_, fun small => scanSeqNo_printSeqNo small.1 small.2⟩, ?_⟩
  · exact lt_of_scanSeqNo_prefix (List.prefix_refl _) scanned
  · intro small_a small_b
    refine ⟨length_printSeqNo small_a.1 small_a.2, fun apart alike => apart ?_⟩
    have scanned_a := scanSeqNo_printSeqNo small_a.1 small_a.2
    have scanned_b := scanSeqNo_printSeqNo small_b.1 small_b.2
    rw [alike] at scanned_a
    exact Option.some.inj (scanned_a.symm.trans scanned_b)

theorem printSeqNo_apart : (printSeqNo (7, 300)).length = 18 ∧
    ((7, 300) ≠ ((8, 300) : Key) → printSeqNo (7, 300) ≠ printSeqNo (8, 300)) :=
  (scanSeqNo_printSeqNo_iff (7, 300) (8, 300)).2 (by decide) (by decide)

end Jumpbox
