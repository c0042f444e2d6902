import Mathlib.Tactic.NormNum
import Sahay.Lib.Format

/-!
# Texts of UUIDs

A UUID is a number of 128 bits, written as 32 hexadecimal digits in five groups.
-/

namespace Sahay

def IsUuid (n : ℕ) : Prop := n < 2 ^ 128

instance : DecidablePred IsUuid := fun _ => inferInstanceAs (Decidable (_ < _))

namespace Format

abbrev UuidGroups := ℕ × ℕ × ℕ × ℕ × ℕ

def uuidGroups : Format UuidGroups :=
  (hexadecimal 8).sep '-' ((hexadecimal 4).sep '-' ((hexadecimal 4).sep '-'
    ((hexadecimal 4).sep '-' (hexadecimal 12))))

end Format

def groupsOfUuid (n : ℕ) : Format.UuidGroups :=
  (n / 2 ^ 96, n / 2 ^ 80 % 2 ^ 16, n / 2 ^ 64 % 2 ^ 16, n / 2 ^ 48 % 2 ^ 16, n % 2 ^ 48)

def uuidOfGroups : Format.UuidGroups → ℕ
  | (a, b, c, d, e) => a * 2 ^ 96 + b * 2 ^ 80 + c * 2 ^ 64 + d * 2 ^ 48 + e

theorem uuidOfGroups_groupsOfUuid (n : ℕ) : uuidOfGroups (groupsOfUuid n) = n := by
  simp only [uuidOfGroups, groupsOfUuid]
  omega

theorem groupsOfUuid_fits {n : ℕ} (h : IsUuid n) : Format.uuidGroups.Fits (groupsOfUuid n) := by
  unfold IsUuid at h
  have ha : n / 2 ^ 96 < 16 ^ 8 := by omega
  have hb : n / 2 ^ 80 % 2 ^ 16 < 16 ^ 4 := by omega
  have hc : n / 2 ^ 64 % 2 ^ 16 < 16 ^ 4 := by omega
  have hd : n / 2 ^ 48 % 2 ^ 16 < 16 ^ 4 := by omega
  have he : n % 2 ^ 48 < 16 ^ 12 := by omega
  exact ⟨ha, hb, hc, hd, he⟩

def Format.uuid : Format ℕ :=
  uuidGroups.via groupsOfUuid uuidOfGroups IsUuid fun n hn =>
    ⟨groupsOfUuid_fits hn, uuidOfGroups_groupsOfUuid n⟩

example : Format.uuid.text 0x0123456789abcdef0123456789abcdef =
    "01234567-89ab-cdef-0123-456789abcdef" := by decide +kernel

/-- The groups of hexadecimal digits, of these lengths, with dashes between them. -/
def isHexGroups : List ℕ → List Char → Bool
  | [], text => text.isEmpty
  | [n], text => text.length = n && text.all isHexDigit
  | n :: m :: ns, text =>
      (text.take n).length = n && (text.take n).all isHexDigit &&
        (text.drop n).head? = some '-' && isHexGroups (m :: ns) (text.drop (n + 1))

/-- `/^[0-9a-f]{8}-[0-9a-f]{4}-[0-9a-f]{4}-[0-9a-f]{4}-[0-9a-f]{12}$/i`. -/
def uuidRe (s : String) : Bool := isHexGroups [8, 4, 4, 4, 12] s.toList

theorem isHexGroups_digits (width n : ℕ) : isHexGroups [width] (digits 16 width n) = true := by
  rw [isHexGroups, length_digits, decide_eq_true rfl, Bool.true_and, List.all_eq_true]
  exact digits_isHexDigit (by decide) (by decide) width n

theorem isHexGroups_cons (width n m : ℕ) (ns : List ℕ) (text : List Char) :
    isHexGroups (width :: m :: ns) (digits 16 width n ++ '-' :: text) =
      isHexGroups (m :: ns) text := by
  have hlength := length_digits 16 width n
  have htake : (digits 16 width n ++ '-' :: text).take width = digits 16 width n := by
    rw [List.take_append_of_le_length hlength.ge, List.take_of_length_le hlength.le]
  have hdrop : (digits 16 width n ++ '-' :: text).drop width = '-' :: text := by
    rw [List.drop_append_of_le_length hlength.ge, List.drop_of_length_le hlength.le,
      List.nil_append]
  have hall : (digits 16 width n).all isHexDigit = true :=
    List.all_eq_true.mpr (digits_isHexDigit (by decide) (by decide) width n)
  rw [isHexGroups, htake, hdrop, hall, ← List.drop_drop, hdrop]
  simp [hlength]

theorem uuidRe_text (n : ℕ) : uuidRe (Format.uuid.text n) = true := by
  let g := groupsOfUuid n
  rw [uuidRe, Format.text, String.toList_ofList]
  calc isHexGroups [8, 4, 4, 4, 12] (Format.uuid.print n)
      = isHexGroups [8, 4, 4, 4, 12] (digits 16 8 g.1 ++ '-' :: (digits 16 4 g.2.1 ++ '-' ::
          (digits 16 4 g.2.2.1 ++ '-' :: (digits 16 4 g.2.2.2.1 ++ '-' ::
            digits 16 12 g.2.2.2.2)))) := rfl
    _ = isHexGroups [12] (digits 16 12 g.2.2.2.2) := by simp only [isHexGroups_cons]
    _ = true := isHexGroups_digits _ _

/-- What PostgreSQL reads as a `uuid`: the standard text, in either case; which other forms it
accepts is left open. -/
def uuidIn (otherForms : String → Option ℕ) (text : String) : Option ℕ :=
  if uuidRe text then Format.uuid.parse text else otherForms text

theorem uuidIn_text (otherForms : String → Option ℕ) {n : ℕ} (h : IsUuid n) :
    uuidIn otherForms (Format.uuid.text n) = some n := by
  rw [uuidIn, if_pos (uuidRe_text n)]
  exact Format.uuid.parse_text h

end Sahay
