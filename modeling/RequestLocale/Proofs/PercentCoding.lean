import Mathlib.Tactic.IntervalCases
import RequestLocale.Http.Percent

/-! # Text in percent coding is read back

A character becomes one to four bytes and each byte a character of its own or a percent sign with
two digits. Both steps can be undone one item at a time, whatever follows (`Utf8.head_encodeChar`,
`bytes_encodeByte`), and what the coding writes is plain, so that reading takes all of it as one
run (`Percent.decode_encode`). -/
namespace RequestLocale.Text

/-! ## Bytes -/

namespace Utf8

theorem toNat_toUInt8 {n : Nat} (h : n < 256) : n.toUInt8.toNat = n := by
  rw [Nat.toUInt8, UInt8.toNat_ofNat', Nat.mod_eq_of_lt h]

/-- A byte of the right form gives its six bits to the code point. -/
theorem continued_cons {low high : UInt8} {n : Nat} (hn : n < 64) (hl : low.toNat ≤ 0x80 + n)
    (hh : 0x80 + n ≤ high.toNat) (code width more : Nat) (bs : List UInt8) :
    continued code width low high (more + 1) ((0x80 + n).toUInt8 :: bs) =
      continued (64 * code + n) (width + 1) 0x80 0xBF more bs := by
  have hb : (0x80 + n).toUInt8.toNat = 0x80 + n := toNat_toUInt8 (by omega)
  have fits : low ≤ (0x80 + n).toUInt8 ∧ (0x80 + n).toUInt8 ≤ high := by
    rw [UInt8.le_iff_toNat_le, UInt8.le_iff_toNat_le, hb]
    exact ⟨hl, hh⟩
  have bits : (0x80 + n) % 64 = n := by omega
  rw [continued, if_pos fits, hb, bits]

/-- Later bytes have no bounds of their own. -/
theorem continued_free {n : Nat} (hn : n < 64) (code width more : Nat) (bs : List UInt8) :
    continued code width 0x80 0xBF (more + 1) ((0x80 + n).toUInt8 :: bs) =
      continued (64 * code + n) (width + 1) 0x80 0xBF more bs := by
  refine continued_cons hn (Nat.le_add_right _ _) ?_ code width more bs
  show 0x80 + n ≤ 0xBF
  omega

theorem lead?_two {n : Nat} (hl : 2 ≤ n) (hh : n < 32) :
    lead? (0xC0 + n).toUInt8 = some ⟨n, 1, 0x80, 0xBF⟩ := by
  have hb : (0xC0 + n).toUInt8.toNat = 0xC0 + n := toNat_toUInt8 (by omega)
  have hc : 0xC2 ≤ 0xC0 + n ∧ 0xC0 + n ≤ 0xDF := by omega
  simp only [lead?, hb, if_pos hc, Nat.add_sub_cancel_left]

theorem lead?_three {n : Nat} (h : n < 16) :
    lead? (0xE0 + n).toUInt8 =
      some ⟨n, 2, if n = 0 then 0xA0 else 0x80, if n = 13 then 0x9F else 0xBF⟩ := by
  interval_cases n <;> rfl

theorem lead?_four {n : Nat} (h : n < 5) :
    lead? (0xF0 + n).toUInt8 =
      some ⟨n, 3, if n = 0 then 0x90 else 0x80, if n = 4 then 0x8F else 0xBF⟩ := by
  interval_cases n <;> rfl

theorem head_of_lead {n : Nat} (hl : 0x80 ≤ n) (hh : n < 256) {lead : Lead}
    (h : lead? n.toUInt8 = some lead) (bs : List UInt8) :
    head n.toUInt8 bs = (continued lead.bits 0 lead.low lead.high lead.more bs).map fun r =>
      (Char.ofNat r.1, r.2) := by
  have hn : ¬ n.toUInt8 < 0x80 := by
    rw [UInt8.lt_iff_toNat_lt, toNat_toUInt8 hh]
    exact Nat.not_lt.mpr hl
  rw [head, if_neg hn, h]

theorem head_two {a b : Nat} (ha : 2 ≤ a ∧ a < 32) (hb : b < 64) (rest : List UInt8) :
    head (0xC0 + a).toUInt8 ((0x80 + b).toUInt8 :: rest) = .ok (Char.ofNat (64 * a + b), 1) := by
  rw [head_of_lead (by omega) (by omega) (lead?_two ha.1 ha.2), continued_free hb]
  rfl

theorem head_three {a b c : Nat} (ha : a < 16) (hb : b < 64) (hc : c < 64)
    (hlow : a = 0 → 32 ≤ b) (hhigh : a = 13 → b < 32) (rest : List UInt8) :
    head (0xE0 + a).toUInt8 ((0x80 + b).toUInt8 :: (0x80 + c).toUInt8 :: rest) =
      .ok (Char.ofNat (64 * (64 * a + b) + c), 2) := by
  have low : (if a = 0 then (0xA0 : UInt8) else 0x80).toNat ≤ 0x80 + b := by
    rw [apply_ite UInt8.toNat]
    show (if a = 0 then 0xA0 else 0x80) ≤ 0x80 + b
    split <;> omega
  have high : 0x80 + b ≤ (if a = 13 then (0x9F : UInt8) else 0xBF).toNat := by
    rw [apply_ite UInt8.toNat]
    show 0x80 + b ≤ if a = 13 then 0x9F else 0xBF
    split <;> omega
  rw [head_of_lead (by omega) (by omega) (lead?_three ha), continued_cons hb low high,
    continued_free hc]
  rfl

theorem head_four {a b c d : Nat} (ha : a < 5) (hb : b < 64) (hc : c < 64) (hd : d < 64)
    (hlow : a = 0 → 16 ≤ b) (hhigh : a = 4 → b < 16) (rest : List UInt8) :
    head (0xF0 + a).toUInt8
        ((0x80 + b).toUInt8 :: (0x80 + c).toUInt8 :: (0x80 + d).toUInt8 :: rest) =
      .ok (Char.ofNat (64 * (64 * (64 * a + b) + c) + d), 3) := by
  have low : (if a = 0 then (0x90 : UInt8) else 0x80).toNat ≤ 0x80 + b := by
    rw [apply_ite UInt8.toNat]
    show (if a = 0 then 0x90 else 0x80) ≤ 0x80 + b
    split <;> omega
  have high : 0x80 + b ≤ (if a = 4 then (0x8F : UInt8) else 0xBF).toNat := by
    rw [apply_ite UInt8.toNat]
    show 0x80 + b ≤ if a = 4 then 0x8F else 0xBF
    split <;> omega
  rw [head_of_lead (by omega) (by omega) (lead?_four ha), continued_cons hb low high,
    continued_free hc, continued_free hd]
  rfl

/-- The bytes of a character are read as this character, whatever follows. -/
theorem head_encodeChar (c : Char) : ∃ b more, encodeChar c = b :: more ∧
    ∀ rest, head b (more ++ rest) = .ok (c, more.length) := by
  have valid : c.toNat < 0xD800 ∨ 0xDFFF < c.toNat ∧ c.toNat < 0x110000 := c.valid
  have hc : Char.ofNat c.toNat = c := Char.ofNat_toNat c
  simp only [encodeChar, Nat.shiftRight_eq_div_pow]
  generalize c.toNat = n at valid hc
  by_cases h1 : n < 0x80
  · rw [if_pos h1]
    refine ⟨_, _, rfl, fun rest => ?_⟩
    have hb : n.toUInt8.toNat = n := toNat_toUInt8 (by omega)
    have low : n.toUInt8 < 0x80 := by
      rw [UInt8.lt_iff_toNat_lt, hb]
      exact h1
    rw [head, if_pos low, hb, hc]
    rfl
  rw [if_neg h1]
  by_cases h2 : n < 0x800
  · rw [if_pos h2]
    refine ⟨_, _, rfl, fun rest => ?_⟩
    have code : 64 * (n / 64) + n / 2 ^ (6 * 0) % 64 = n := by omega
    exact (head_two (by omega) (by omega) rest).trans (by rw [code, hc]; rfl)
  rw [if_neg h2]
  by_cases h3 : n < 0x10000
  · rw [if_pos h3]
    refine ⟨_, _, rfl, fun rest => ?_⟩
    have code : 64 * (64 * (n / 4096) + n / 2 ^ (6 * 1) % 64) + n / 2 ^ (6 * 0) % 64 = n := by omega
    exact (head_three (by omega) (by omega) (by omega) (by omega) (by omega) rest).trans
      (by rw [code, hc]; rfl)
  · rw [if_neg h3]
    refine ⟨_, _, rfl, fun rest => ?_⟩
    have code : 64 * (64 * (64 * (n / 262144) + n / 2 ^ (6 * 2) % 64) + n / 2 ^ (6 * 1) % 64) +
        n / 2 ^ (6 * 0) % 64 = n := by omega
    exact (head_four (by omega) (by omega) (by omega) (by omega) (by omega) (by omega) rest).trans
      (by rw [code, hc]; rfl)

theorem decodeLenient_encodeChar (c : Char) (rest : List UInt8) :
    decodeLenient (encodeChar c ++ rest) = c :: decodeLenient rest := by
  obtain ⟨b, more, hc, hr⟩ := head_encodeChar c
  rw [hc, List.cons_append, decodeLenient, hr rest]
  simp only [List.drop_left]

/-- Text survives as bytes. -/
theorem decodeLenient_encode (cs : List Char) : decodeLenient (encode cs) = cs := by
  induction cs with
  | nil => simp [encode, decodeLenient]
  | cons c cs ih =>
    rw [encode, List.flatMap_cons, decodeLenient_encodeChar, ← encode, ih]

theorem decodeFrom_encode (position : Nat) (cs : List Char) :
    decodeFrom position (encode cs) = .ok cs := by
  induction cs generalizing position with
  | nil => simp [encode, decodeFrom]
  | cons c cs ih =>
    obtain ⟨b, more, hc, hr⟩ := head_encodeChar c
    rw [encode, List.flatMap_cons, hc, List.cons_append, decodeFrom, hr]
    simp only [List.drop_left]
    rw [← encode, ih]
    rfl

end Utf8

/-! ## Digits -/

theorem hexValue?_hexDigitUpper (n : Nat) : hexValue? (hexDigitUpper n) = some (n % 16) := by
  have h : n % 16 < 16 := Nat.mod_lt _ (by decide)
  unfold hexDigitUpper hexDigit
  generalize n % 16 = d at h
  interval_cases d <;> rfl

end RequestLocale.Text

namespace RequestLocale.Http.Percent

open Text

/-! ## Percent signs -/

theorem toNat_ofNat_byte (b : UInt8) : (Char.ofNat b.toNat).toNat = b.toNat := by
  have hb : b.toNat < 256 := b.toNat_lt
  have valid : b.toNat.isValidChar := .inl (by omega)
  rw [Char.ofNat, dif_pos valid]
  rfl

/-- A character that is no percent sign is its own byte. -/
theorem bytes_cons_of_ne {c : Char} (h : c ≠ '%') (cs : List Char) :
    bytes (c :: cs) = c.toNat.toUInt8 :: bytes cs := by
  match cs with
  | [] => rfl
  | [_] => rfl
  | _ :: _ :: _ =>
    rw [bytes]
    split
    · rw [if_neg h]
    · rfl

/-- A byte that stands for itself is no percent sign. -/
theorem ofNat_ne_percent {b : UInt8} (h : isPlain b = true) : Char.ofNat b.toNat ≠ '%' := by
  intro he
  have hb : b.toNat = 37 := by rw [← toNat_ofNat_byte, he]; rfl
  have : b = 37 := UInt8.toNat_inj.mp hb
  subst this
  cases h

theorem bytes_encodeByte (b : UInt8) (cs : List Char) :
    bytes (encodeByte [] b ++ cs) = b :: bytes cs := by
  unfold encodeByte
  cases h : isPlain b with
  | true =>
    simp only [Bool.true_or, if_true, List.cons_append, List.nil_append]
    rw [bytes_cons_of_ne (ofNat_ne_percent h), toNat_ofNat_byte]
    simp
  | false =>
    have hb : b.toNat < 256 := b.toNat_lt
    have code : 16 * (b.toNat / 16 % 16) + b.toNat % 16 = b.toNat := by omega
    simp [bytes, hexValue?_hexDigitUpper, code]

theorem bytes_flatMap_encodeByte (bs : List UInt8) : bytes (bs.flatMap (encodeByte [])) = bs := by
  induction bs with
  | nil => rfl
  | cons b bs ih => rw [List.flatMap_cons, bytes_encodeByte, ih]

/-- Text of plain characters is one run. -/
theorem decodeFrom_of_ascii {cs : List Char} (h : ∀ c ∈ cs, isAscii c = true) (run : List Char) :
    decodeFrom run cs = Utf8.decodeLenient (bytes (run.reverse ++ cs)) := by
  induction cs generalizing run with
  | nil => simp [decodeFrom]
  | cons c cs ih =>
    rw [decodeFrom, if_pos (h c List.mem_cons_self),
      ih (fun d hd => h d (List.mem_cons_of_mem _ hd)), List.reverse_cons, List.append_assoc]
    rfl

/-- What holds of the characters for each byte holds of all that the coding writes. -/
theorem forall_mem_encode {p : Char → Bool}
    (h : ∀ n : Fin 256, (encodeByte [] (UInt8.ofNat n)).all p = true) {cs : List Char} {c : Char}
    (hc : c ∈ encode cs) : p c = true := by
  obtain ⟨b, _, hb⟩ := List.mem_flatMap.mp hc
  have hn := h ⟨b.toNat, b.toNat_lt⟩
  rw [UInt8.ofNat_toNat] at hn
  exact List.all_eq_true.mp hn c hb

theorem isAscii_of_mem_encode {cs : List Char} {c : Char} (h : c ∈ encode cs) :
    isAscii c = true :=
  forall_mem_encode (by decide +kernel) h

/-- Any text survives its coding. -/
theorem decode_encode (cs : List Char) : decode (encode cs) = cs := by
  rw [decode, decodeFrom_of_ascii (fun c => isAscii_of_mem_encode), List.reverse_nil,
    List.nil_append, encode, encodeKeeping, bytes_flatMap_encodeByte, Utf8.decodeLenient_encode]

/-- Only the empty text has an empty coding. -/
theorem encode_eq_nil {cs : List Char} (h : encode cs = []) : cs = [] := by
  rw [← decode_encode cs, h]
  decide +kernel

end RequestLocale.Http.Percent
