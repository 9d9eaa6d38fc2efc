import Jumpbox.Library.JsonText

/-! Texts in UTF-8, as bytes and as C has them: a character for each byte. A JSON text is
made of marks that stand for themselves, so its bytes are the text of the bytes. -/

namespace Utf8

open JsonText

def encode (s : List Char) : List UInt8 := s.flatMap String.utf8EncodeChar

/-- The bytes of a text, each as a character. -/
def bytes (s : List Char) : List Char := (encode s).map fun b => Char.ofNat b.toNat

@[simp] theorem bytes_nil : bytes [] = [] := rfl

theorem bytes_cons (c : Char) (s : List Char) :
    bytes (c :: s) = (String.utf8EncodeChar c).map (fun b => Char.ofNat b.toNat) ++ bytes s := by
  simp [bytes, encode]

theorem bytes_append (s t : List Char) : bytes (s ++ t) = bytes s ++ bytes t := by
  simp [bytes, encode]

theorem encodeChar_ascii {c : Char} (ascii : c.toNat < 128) :
    String.utf8EncodeChar c = [UInt8.ofNat c.toNat] :=
  if_pos (show c.val.toNat ≤ 127 from Nat.le_of_lt_succ ascii)

theorem toNat_ofNat {n : ℕ} (small : n < 256) : (UInt8.ofNat n).toNat = n := by
  rw [UInt8.toNat_ofNat']
  omega

theorem encodeChar_high {c : Char} (high : 128 ≤ c.toNat) {b : UInt8}
    (member : b ∈ String.utf8EncodeChar c) : 128 ≤ b.toNat := by
  have valid : c.val.toNat < 1114112 := by
    have := c.toNat_val
    have := c.valid
    simp only [UInt32.isValidChar, Nat.isValidChar] at this
    omega
  have high : ¬c.val.toNat ≤ 127 := by
    change 128 ≤ c.val.toNat at high
    omega
  unfold String.utf8EncodeChar at member
  dsimp only at member
  rw [if_neg high] at member
  split at member
  · simp only [List.mem_cons, List.not_mem_nil, or_false] at member
    rcases member with rfl | rfl <;> rw [toNat_ofNat (by omega)] <;> omega
  · split at member
    · simp only [List.mem_cons, List.not_mem_nil, or_false] at member
      rcases member with rfl | rfl | rfl <;> rw [toNat_ofNat (by omega)] <;> omega
    · simp only [List.mem_cons, List.not_mem_nil, or_false] at member
      rcases member with rfl | rfl | rfl | rfl <;> rw [toNat_ofNat (by omega)] <;> omega

theorem bytes_ascii {s : List Char} (ascii : ∀ c ∈ s, c.toNat < 128) : bytes s = s := by
  induction s with
  | nil => rfl
  | cons c s ih =>
    have first := ascii c List.mem_cons_self
    rw [bytes_cons, encodeChar_ascii first,
      ih fun c member => ascii c (List.mem_cons_of_mem _ member)]
    rw [List.map_singleton, toNat_ofNat (by omega), Char.ofNat_toNat, List.singleton_append]

theorem zero_not_mem_encode {s : List Char} (none : '\x00' ∉ s) : 0 ∉ encode s := by
  intro member
  obtain ⟨c, present, zero⟩ := List.mem_flatMap.mp member
  by_cases ascii : c.toNat < 128
  · rw [encodeChar_ascii ascii, List.mem_singleton] at zero
    have same := congrArg UInt8.toNat zero
    rw [toNat_ofNat (by omega)] at same
    have nul : c = '\x00' := by rw [← Char.ofNat_toNat c, ← same]; rfl
    exact none (nul ▸ present)
  · exact absurd (encodeChar_high (by omega) zero) (by decide)

/-! JSON texts. -/

theorem quoteChar_high {c : Char} (high : 128 ≤ c.toNat) : quoteChar c = [c] := by
  have none : (shortEscapes.find? fun escape => escape.1 = c) = none := by
    refine List.find?_eq_none.mpr fun escape listed same => ?_
    obtain rfl : escape.1 = c := of_decide_eq_true same
    revert high
    fin_cases listed <;> decide
  rw [quoteChar, none]
  exact if_neg (by omega)

theorem hexChar_ascii : ∀ n < 16, (hexChar n).toNat < 128 := by decide

theorem quoteChar_ascii {c : Char} (ascii : c.toNat < 128) :
    ∀ d ∈ quoteChar c, d.toNat < 128 := by
  unfold quoteChar
  split
  next escape found =>
    have listed := List.mem_of_find?_eq_some found
    intro d member
    simp only [List.mem_cons, List.not_mem_nil, or_false] at member
    rcases member with rfl | rfl
    · decide
    · fin_cases listed <;> decide
  next =>
    split
    next control =>
      intro d member
      simp only [List.mem_cons, List.not_mem_nil, or_false] at member
      rcases member with rfl | rfl | rfl | rfl | rfl | rfl
      · decide
      · decide
      · decide
      · decide
      · exact hexChar_ascii _ (by omega)
      · exact hexChar_ascii _ (by omega)
    next =>
      intro d member
      rw [List.mem_singleton.mp member]
      exact ascii

theorem quote_high {s : List Char} (high : ∀ c ∈ s, 128 ≤ c.toNat) : quote s = s := by
  induction s with
  | nil => rfl
  | cons c s ih =>
    rw [quote, List.flatMap_cons, quoteChar_high (high c List.mem_cons_self)]
    exact congrArg (c :: ·) (ih fun c member => high c (List.mem_cons_of_mem _ member))

theorem quote_append (s t : List Char) : quote (s ++ t) = quote s ++ quote t := by
  simp [quote]

theorem toNat_byte (b : UInt8) : (Char.ofNat b.toNat).toNat = b.toNat := by
  have valid : b.toNat.isValidChar := .inl (Nat.lt_trans b.toNat_lt (by decide))
  rw [Char.ofNat, dif_pos valid]
  exact UInt32.toNat_ofNatLT

theorem bytes_quote (s : List Char) : bytes (quote s) = quote (bytes s) := by
  induction s with
  | nil => rfl
  | cons c s ih =>
    have rest : quote (c :: s) = quoteChar c ++ quote s := by simp [quote]
    rw [rest, bytes_append, ih, bytes_cons, quote_append]
    congr 1
    by_cases ascii : c.toNat < 128
    · rw [bytes_ascii (quoteChar_ascii ascii), encodeChar_ascii ascii, List.map_singleton,
        toNat_ofNat (by omega), Char.ofNat_toNat]
      simp [quote]
    · have high : 128 ≤ c.toNat := by omega
      rw [quoteChar_high high, bytes_cons, bytes_nil, List.append_nil]
      refine (quote_high fun d member => ?_).symm
      obtain ⟨b, present, rfl⟩ := List.mem_map.mp member
      rw [toNat_byte]
      exact encodeChar_high high present

def texts (members : List (List Char × List Char)) : List (List Char × Scalar) :=
  members.map fun m => (m.1, .string m.2)

theorem space_ascii {space : List Char} (blank : space.all isSpace) :
    ∀ c ∈ space, c.toNat < 128 := by
  intro c member
  have blank := List.all_eq_true.mp blank c member
  simp only [isSpace, Bool.or_eq_true, decide_eq_true_eq] at blank
  rcases blank with ((rfl | rfl) | rfl) | rfl <;> decide

theorem bytes_mark {c : Char} (ascii : c.toNat < 128) (s : List Char) :
    bytes (c :: s) = c :: bytes s := by
  rw [bytes_cons, encodeChar_ascii ascii, List.map_singleton, toNat_ofNat (by omega),
    Char.ofNat_toNat, List.singleton_append]

variable (l : Layout)

theorem bytes_printMember (m : List Char × List Char) :
    bytes (printMember l (m.1, .string m.2)) = printMember l (bytes m.1, .string (bytes m.2)) := by
  have quoteMark (s : List Char) : bytes ('"' :: s) = '"' :: bytes s := bytes_mark (by decide) s
  have colonMark (s : List Char) : bytes (':' :: s) = ':' :: bytes s := bytes_mark (by decide) s
  simp only [printMember, Scalar.print, List.cons_append, quoteMark, bytes_append, bytes_quote,
    colonMark, bytes_ascii (space_ascii l.colon_space), bytes_nil]

theorem bytes_printMembers (members : List (List Char × List Char)) :
    bytes (printMembers l (texts members)) =
      printMembers l (texts (members.map fun m => (bytes m.1, bytes m.2))) := by
  induction members with
  | nil => rfl
  | cons m members ih =>
    cases members with
    | nil => exact bytes_printMember l m
    | cons m' members =>
      have comma (s : List Char) : bytes (',' :: s) = ',' :: bytes s := bytes_mark (by decide) s
      simp only [texts, List.map_cons, printMembers, bytes_append, comma, bytes_printMember,
        bytes_ascii (space_ascii l.comma_space)] at ih ⊢
      rw [ih]

theorem bytes_print (members : List (List Char × List Char)) :
    bytes (print l (texts members)) =
      print l (texts (members.map fun m => (bytes m.1, bytes m.2))) := by
  have opening (s : List Char) : bytes ('\x7b' :: s) = '\x7b' :: bytes s :=
    bytes_mark (by decide) s
  have closing : bytes ['\x7d'] = ['\x7d'] := by decide
  simp only [print, List.cons_append, opening, bytes_append, closing, bytes_printMembers,
    bytes_ascii (space_ascii l.opening_space)]

theorem nul_not_mem_quote (s : List Char) : '\x00' ∉ quote s := by
  intro member
  obtain ⟨c, -, nul⟩ := List.mem_flatMap.mp member
  unfold quoteChar at nul
  split at nul
  next escape found =>
    have listed := List.mem_of_find?_eq_some found
    revert nul
    fin_cases listed <;> decide
  next =>
    split at nul
    next control =>
      have digits : ∀ n < 16, '\x00' ≠ hexChar n := by decide
      simp only [List.mem_cons, List.not_mem_nil, or_false] at nul
      rcases nul with nul | nul | nul | nul | nul | nul
      · exact absurd nul (by decide)
      · exact absurd nul (by decide)
      · exact absurd nul (by decide)
      · exact absurd nul (by decide)
      · exact digits _ (by omega) nul
      · exact digits _ (by omega) nul
    next visible =>
      rw [← List.mem_singleton.mp nul] at visible
      exact visible (by decide)

theorem nul_not_mem_print (members : List (List Char × List Char)) :
    '\x00' ∉ print l (texts members) := by
  have space {space : List Char} (blank : space.all isSpace) : '\x00' ∉ space := fun member =>
    absurd (List.all_eq_true.mp blank _ member) (by decide)
  have one (m : List Char × List Char) : '\x00' ∉ printMember l (m.1, .string m.2) := by
    simp [printMember, Scalar.print, nul_not_mem_quote, space l.colon_space]
  have all : '\x00' ∉ printMembers l (texts members) := by
    induction members with
    | nil => exact List.not_mem_nil
    | cons m members ih =>
      cases members with
      | nil => exact one m
      | cons m' members =>
        simp only [texts, List.map_cons, printMembers, List.mem_append, List.mem_cons,
          not_or] at ih ⊢
        exact ⟨⟨one m, by decide, space l.comma_space⟩, ih⟩
  simp only [print, List.mem_append, List.mem_cons, List.not_mem_nil, or_false, not_or]
  exact ⟨⟨⟨by decide, space l.opening_space⟩, all⟩, by decide⟩

end Utf8
