import Mathlib.Data.Nat.Notation
import Mathlib.Tactic.Ring

/-!
# Texts that are read back

A format prints values and reads them from the front of a text.  It carries its own law: what
it prints for a value that fits is read back, whatever follows.  Formats are put together from
digits of fixed width and separators, and the law goes along.
-/

namespace Sahay

structure Format (α : Type) where
  print : α → List Char
  read : List Char → Option (α × List Char)
  /-- The values that the format has room for. -/
  Fits : α → Prop
  /-- The characters that it prints. -/
  alphabet : Char → Bool
  read_print : ∀ a, Fits a → ∀ rest, read (print a ++ rest) = some (a, rest)
  print_alphabet : ∀ a, ∀ c ∈ print a, alphabet c = true

/-! ## Digits -/

/-- The value of a digit up to `f`, in lower or upper case. -/
def digitValue (c : Char) : Option ℕ :=
  if '0' ≤ c ∧ c ≤ '9' then some (c.toNat - 48)
  else if 'a' ≤ c ∧ c ≤ 'f' then some (c.toNat - 87)
  else if 'A' ≤ c ∧ c ≤ 'F' then some (c.toNat - 55)
  else none

def isHexDigit (c : Char) : Bool := (digitValue c).isSome

theorem digitValue_digitChar {d : ℕ} (h : d < 16) : digitValue (Nat.digitChar d) = some d := by
  have hall : ∀ d : Fin 16, digitValue (Nat.digitChar d) = some d.val := by decide
  exact hall ⟨d, h⟩

/-- The last `width` digits of a number, the most significant first. -/
def digits (base : ℕ) : ℕ → ℕ → List Char
  | 0, _ => []
  | width + 1, n => Nat.digitChar (n / base ^ width % base) :: digits base width n

def readDigits (base : ℕ) : ℕ → ℕ → List Char → Option (ℕ × List Char)
  | 0, acc, text => some (acc, text)
  | _ + 1, _, [] => none
  | width + 1, acc, c :: text =>
      match digitValue c with
      | some d => if d < base then readDigits base width (acc * base + d) text else none
      | none => none

theorem length_digits (base width n : ℕ) : (digits base width n).length = width := by
  induction width with
  | zero => rfl
  | succ width ih => rw [digits, List.length_cons, ih]

section Digits

variable {base : ℕ}

theorem readDigits_digits (hbase : 0 < base) (hhex : base ≤ 16) (width acc n : ℕ)
    (rest : List Char) :
    readDigits base width acc (digits base width n ++ rest) =
      some (acc * base ^ width + n % base ^ width, rest) := by
  induction width generalizing acc with
  | zero => simp [digits, readDigits, Nat.mod_one]
  | succ width ih =>
      have hdigit : n / base ^ width % base < base := Nat.mod_lt _ hbase
      rw [digits, List.cons_append, readDigits,
        digitValue_digitChar (Nat.lt_of_lt_of_le hdigit hhex)]
      simp only [if_pos hdigit, ih]
      have hvalue : (acc * base + n / base ^ width % base) * base ^ width + n % base ^ width =
          acc * base ^ (width + 1) + n % base ^ (width + 1) := by
        rw [Nat.mod_pow_succ, pow_succ]
        ring
      rw [hvalue]

theorem digits_isHexDigit (hbase : 0 < base) (hhex : base ≤ 16) (width n : ℕ) :
    ∀ c ∈ digits base width n, isHexDigit c = true := by
  induction width with
  | zero => exact fun c hc => absurd hc List.not_mem_nil
  | succ width ih =>
      intro c hc
      rw [digits, List.mem_cons] at hc
      rcases hc with rfl | hc
      · have hdigit : n / base ^ width % base < base := Nat.mod_lt _ hbase
        rw [isHexDigit, digitValue_digitChar (Nat.lt_of_lt_of_le hdigit hhex), Option.isSome_some]
      · exact ih c hc

end Digits

namespace Format

variable {α β : Type}

/-- A number of exactly `width` digits. -/
def number (base : ℕ) (hbase : 0 < base) (hhex : base ≤ 16) (width : ℕ) : Format ℕ where
  print := digits base width
  read := readDigits base width 0
  Fits n := n < base ^ width
  alphabet := isHexDigit
  read_print n hn rest := by
    rw [readDigits_digits hbase hhex, zero_mul, zero_add, Nat.mod_eq_of_lt hn]
  print_alphabet := digits_isHexDigit hbase hhex width

/-- `width` decimal digits. -/
abbrev decimal (width : ℕ) : Format ℕ := number 10 (by decide) (by decide) width

/-- `width` hexadecimal digits. -/
abbrev hexadecimal (width : ℕ) : Format ℕ := number 16 (by decide) (by decide) width

/-! ## Composition -/

/-- Reads the character `c`. -/
def readChar (c : Char) : List Char → Option (List Char)
  | [] => none
  | d :: text => if d = c then some text else none

/-- One value, a separator, and another value. -/
def sep (f : Format α) (c : Char) (g : Format β) : Format (α × β) where
  print p := f.print p.1 ++ c :: g.print p.2
  read text := do
    let (a, text) ← f.read text
    let text ← readChar c text
    let (b, text) ← g.read text
    return ((a, b), text)
  Fits p := f.Fits p.1 ∧ g.Fits p.2
  alphabet d := f.alphabet d || d = c || g.alphabet d
  read_print p hp rest := by
    rw [List.append_assoc, f.read_print p.1 hp.1]
    simp [readChar, g.read_print p.2 hp.2]
  print_alphabet p d hd := by
    rw [List.mem_append, List.mem_cons] at hd
    rcases hd with hd | rfl | hd
    · simp [f.print_alphabet p.1 d hd]
    · simp
    · simp [g.print_alphabet p.2 d hd]

/-- One value and a mark behind it. -/
def mark (f : Format α) (c : Char) : Format α where
  print a := f.print a ++ [c]
  read text := do
    let (a, text) ← f.read text
    let text ← readChar c text
    return (a, text)
  Fits := f.Fits
  alphabet d := f.alphabet d || d = c
  read_print a ha rest := by
    rw [List.append_assoc, f.read_print a ha]
    simp [readChar]
  print_alphabet a d hd := by
    rw [List.mem_append, List.mem_singleton] at hd
    rcases hd with hd | rfl
    · simp [f.print_alphabet a d hd]
    · simp

/-- Values that are split into the parts that `f` prints. -/
def via (f : Format α) (split : β → α) (join : α → β) (fits : β → Prop)
    (h : ∀ b, fits b → f.Fits (split b) ∧ join (split b) = b) : Format β where
  print b := f.print (split b)
  read text := (f.read text).map fun r => (join r.1, r.2)
  Fits := fits
  alphabet := f.alphabet
  read_print b hb rest := by
    rw [f.read_print (split b) (h b hb).1, Option.map_some, (h b hb).2]
  print_alphabet b := f.print_alphabet (split b)

/-! ## Whole texts -/

def text (f : Format α) (a : α) : String := String.ofList (f.print a)

def parse (f : Format α) (s : String) : Option α :=
  match f.read s.toList with
  | some (a, []) => some a
  | _ => none

theorem parse_text (f : Format α) {a : α} (ha : f.Fits a) : f.parse (f.text a) = some a := by
  have hread := f.read_print a ha []
  rw [List.append_nil] at hread
  rw [parse, text, String.toList_ofList, hread]

end Format
end Sahay
