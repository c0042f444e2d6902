import Mathlib.Data.List.Basic
import Sahay.Lib.Format

/-!
# Bytes as text

Hexadecimal and base64.  The decoders take every text, as those of a platform library do: what is
no digit ends a hexadecimal text and is skipped in a base64 text, and digits that make no whole
byte are dropped.  What the encoders print is read back.
-/

namespace Sahay

abbrev Byte := Fin 256

abbrev Bytes := List Byte

namespace Bytes

def zeros (n : ℕ) : Bytes := List.replicate n (Fin.ofNat 256 0)

@[simp]
theorem length_zeros (n : ℕ) : (zeros n).length = n := List.length_replicate

/-! ## Hexadecimal -/

def toHex : Bytes → List Char
  | [] => []
  | b :: bs => Nat.digitChar (b / 16) :: Nat.digitChar (b % 16) :: toHex bs

def ofHex : List Char → Bytes
  | high :: low :: text =>
      match digitValue high, digitValue low with
      | some h, some l => Fin.ofNat 256 (16 * h + l) :: ofHex text
      | _, _ => []
  | _ => []

theorem ofHex_toHex (bs : Bytes) : ofHex (toHex bs) = bs := by
  induction bs with
  | nil => rfl
  | cons b bs ih =>
      have hhigh : digitValue (Nat.digitChar (b / 16)) = some (b / 16 : ℕ) :=
        digitValue_digitChar (by omega)
      have hlow : digitValue (Nat.digitChar (b % 16)) = some (b % 16 : ℕ) :=
        digitValue_digitChar (by omega)
      have hbyte : Fin.ofNat 256 (16 * (b / 16 : ℕ) + (b % 16 : ℕ)) = b := by
        apply Fin.ext
        show (16 * (b / 16 : ℕ) + (b % 16 : ℕ)) % 256 = b
        omega
      simp only [toHex, ofHex, hhigh, hlow, ih, hbyte]

theorem toHex_injective : Function.Injective toHex :=
  Function.LeftInverse.injective ofHex_toHex

theorem isHexDigit_of_mem_toHex {bs : Bytes} {c : Char} (h : c ∈ toHex bs) :
    isHexDigit c = true := by
  induction bs with
  | nil => cases h
  | cons b bs ih =>
      rw [toHex, List.mem_cons, List.mem_cons] at h
      rcases h with rfl | rfl | h
      · rw [isHexDigit, digitValue_digitChar (by omega)]
        rfl
      · rw [isHexDigit, digitValue_digitChar (by omega)]
        rfl
      · exact ih h

/-! ## Base64 -/

def base64Digits : List Char :=
  "ABCDEFGHIJKLMNOPQRSTUVWXYZabcdefghijklmnopqrstuvwxyz0123456789+/".toList

def base64Digit (n : ℕ) : Char := base64Digits.getD n '='

def base64Value (c : Char) : Option ℕ :=
  if c = '-' then some 62 else if c = '_' then some 63 else base64Digits.findIdx? (· = c)

def toBase64 : Bytes → List Char
  | [] => []
  | [a] => [base64Digit (a / 4), base64Digit (a % 4 * 16), '=', '=']
  | [a, b] =>
      [base64Digit (a / 4), base64Digit (a % 4 * 16 + b / 16), base64Digit (b % 16 * 4), '=']
  | a :: b :: c :: bs =>
      base64Digit (a / 4) :: base64Digit (a % 4 * 16 + b / 16) ::
        base64Digit (b % 16 * 4 + c / 64) :: base64Digit (c % 64) :: toBase64 bs

/-- Four digits for three bytes. -/
def ofSextets : List ℕ → Bytes
  | w :: x :: y :: z :: rest =>
      Fin.ofNat 256 (w * 4 + x / 16) :: Fin.ofNat 256 (x % 16 * 16 + y / 4) ::
        Fin.ofNat 256 (y % 4 * 64 + z) :: ofSextets rest
  | [w, x, y] => [Fin.ofNat 256 (w * 4 + x / 16), Fin.ofNat 256 (x % 16 * 16 + y / 4)]
  | [w, x] => [Fin.ofNat 256 (w * 4 + x / 16)]
  | _ => []

def ofBase64 (text : List Char) : Bytes := ofSextets (text.filterMap base64Value)

theorem base64Value_digit {n : ℕ} (h : n < 64) : base64Value (base64Digit n) = some n := by
  have hall : ∀ n : Fin 64, base64Value (base64Digit n) = some n.val := by decide +kernel
  exact hall ⟨n, h⟩

theorem base64Value_pad : base64Value '=' = none := by decide

theorem ofNat_byte {n : ℕ} {b : Byte} (h : n = b) : Fin.ofNat 256 n = b := by
  apply Fin.ext
  show n % 256 = b
  omega

theorem ofBase64_toBase64 (bs : Bytes) : ofBase64 (toBase64 bs) = bs := by
  rw [ofBase64]
  fun_induction toBase64 bs with
  | case1 => rfl
  | case2 a =>
      have ha : base64Value (base64Digit (a / 4)) = some (a / 4 : ℕ) :=
        base64Value_digit (by omega)
      have hb : base64Value (base64Digit (a % 4 * 16)) = some (a % 4 * 16 : ℕ) :=
        base64Value_digit (by omega)
      simp only [List.filterMap_cons, List.filterMap_nil, ha, hb, base64Value_pad, ofSextets]
      rw [ofNat_byte (b := a) (by omega)]
  | case3 a b =>
      have ha : base64Value (base64Digit (a / 4)) = some (a / 4 : ℕ) :=
        base64Value_digit (by omega)
      have hb : base64Value (base64Digit (a % 4 * 16 + b / 16)) = some (a % 4 * 16 + b / 16 : ℕ) :=
        base64Value_digit (by omega)
      have hc : base64Value (base64Digit (b % 16 * 4)) = some (b % 16 * 4 : ℕ) :=
        base64Value_digit (by omega)
      simp only [List.filterMap_cons, List.filterMap_nil, ha, hb, hc, base64Value_pad, ofSextets]
      rw [ofNat_byte (b := a) (by omega), ofNat_byte (b := b) (by omega)]
  | case4 a b c bs ih =>
      have ha : base64Value (base64Digit (a / 4)) = some (a / 4 : ℕ) :=
        base64Value_digit (by omega)
      have hb : base64Value (base64Digit (a % 4 * 16 + b / 16)) = some (a % 4 * 16 + b / 16 : ℕ) :=
        base64Value_digit (by omega)
      have hc : base64Value (base64Digit (b % 16 * 4 + c / 64)) = some (b % 16 * 4 + c / 64 : ℕ) :=
        base64Value_digit (by omega)
      have hd : base64Value (base64Digit (c % 64)) = some (c % 64 : ℕ) :=
        base64Value_digit (by omega)
      simp only [List.filterMap_cons, ha, hb, hc, hd, ofSextets]
      rw [ofNat_byte (b := a) (by omega), ofNat_byte (b := b) (by omega),
        ofNat_byte (b := c) (by omega), ih]

theorem base64Digit_mem (n : ℕ) : base64Digit n ∈ '=' :: base64Digits := by
  rw [base64Digit, List.getD_eq_getElem?_getD]
  cases h : base64Digits[n]? with
  | none => exact List.mem_cons_self
  | some c => exact List.mem_cons_of_mem _ (List.mem_of_getElem? h)

theorem mem_toBase64 {bs : Bytes} {c : Char} (h : c ∈ toBase64 bs) : c ∈ '=' :: base64Digits := by
  fun_induction toBase64 bs with
  | case1 => cases h
  | case2 a =>
      simp only [List.mem_cons, List.not_mem_nil, or_false] at h
      rcases h with rfl | rfl | rfl | rfl
      · exact base64Digit_mem _
      · exact base64Digit_mem _
      · exact List.mem_cons_self
      · exact List.mem_cons_self
  | case3 a b =>
      simp only [List.mem_cons, List.not_mem_nil, or_false] at h
      rcases h with rfl | rfl | rfl | rfl
      · exact base64Digit_mem _
      · exact base64Digit_mem _
      · exact base64Digit_mem _
      · exact List.mem_cons_self
  | case4 a b c bs ih =>
      rw [List.mem_cons, List.mem_cons, List.mem_cons, List.mem_cons] at h
      rcases h with rfl | rfl | rfl | rfl | h
      · exact base64Digit_mem _
      · exact base64Digit_mem _
      · exact base64Digit_mem _
      · exact base64Digit_mem _
      · exact ih h

end Bytes
end Sahay
