import Sahay.Lib.Encoding
import Sahay.Lib.Sampling

/-!
# Secrets

`lib/crypto.ts`: how addresses are encrypted and looked up, how passwords and one-time codes are
stored and checked, and how codes and passwords are drawn.  The ciphers and hashes of `node:crypto`
are a parameter.
-/

namespace Sahay

/-- What `scryptSync` is called with. -/
structure ScryptCall where
  password : Bytes
  salt : Bytes
  keyLen : ℕ
  N : ℤ
  r : ℤ
  p : ℤ
  maxmem : ℕ

/-- `node:crypto`, and what strings and numbers are to it. -/
structure Primitives where
  /-- AES-256-GCM: the ciphertext and its tag, of a key, a vector and a plaintext. -/
  gcmSeal : Bytes → Bytes → Bytes → Bytes × Bytes
  /-- The plaintext of a key, a vector, a tag and a ciphertext, if the tag is theirs. -/
  gcmOpen : Bytes → Bytes → Bytes → Bytes → Option Bytes
  hmacSha256 : Bytes → Bytes → Bytes
  /-- Nothing where it throws. -/
  scrypt : ScryptCall → Option Bytes
  /-- `normalize('NFKC')`. -/
  nfkc : String → String
  /-- `Number` of a text, if it is an integer. -/
  number : String → Option ℤ
  /-- `toString('utf8')` of bytes that are not well-formed. -/
  utf8Lossy : Bytes → String

/-- What the program relies on. -/
structure Primitives.Lawful (P : Primitives) : Prop where
  opens : ∀ key iv text, P.gcmOpen key iv (P.gcmSeal key iv text).2 (P.gcmSeal key iv text).1 =
    some text
  tag_length : ∀ key iv text, (P.gcmSeal key iv text).2.length = 16
  number_toString : ∀ n : ℕ, n < 2 ^ 53 → P.number (toString n) = some (n : ℤ)
  scrypt_length : ∀ call key, P.scrypt call = some key → key.length = call.keyLen
  /-- Where the parameters are in range, and the blocks and the table fit into the memory. -/
  scrypt_isSome : ∀ (call : ScryptCall) (k r p : ℕ), 0 < k → k < 32 → k < 16 * r → 0 < p →
    r * p < 2 ^ 30 → call.N = (2 ^ k : ℕ) → call.r = (r : ℕ) → call.p = (p : ℕ) →
    128 * r * p + 128 * r * (2 ^ k + 2) ≤ call.maxmem → (P.scrypt call).isSome
  scrypt_eq_none : ∀ call : ScryptCall, call.maxmem < 128 * call.N * call.r → P.scrypt call = none

namespace Crypto

def utf8 (s : String) : Bytes := s.toUTF8.data.toList.map UInt8.toFin

def ofUtf8 (P : Primitives) (bs : Bytes) : String :=
  (String.fromUTF8? ⟨(bs.map UInt8.ofFin).toArray⟩).getD (P.utf8Lossy bs)

def hex (bs : Bytes) : String := String.ofList bs.toHex

def base64 (bs : Bytes) : String := String.ofList bs.toBase64

/-- `Buffer.from(text, 'hex')`. -/
def fromHex (s : String) : Bytes := Bytes.ofHex s.toList

/-- `Buffer.from(text, 'base64')`. -/
def fromBase64 (s : String) : Bytes := Bytes.ofBase64 s.toList

variable (P : Primitives)

/-! ## Addresses -/

def encryptPii (PII_ENCRYPTION_KEY : String) (iv : Bytes) (plaintext : String) : String :=
  let (enc, tag) := P.gcmSeal (fromHex PII_ENCRYPTION_KEY) iv (utf8 plaintext)
  base64 (iv ++ tag ++ enc)

/-- Nothing where it throws. -/
def decryptPii (PII_ENCRYPTION_KEY : String) (payload : String) : Option String :=
  let buf := fromBase64 payload
  let iv := buf.take 12
  let tag := (buf.drop 12).take 16
  let enc := buf.drop 28
  (P.gcmOpen (fromHex PII_ENCRYPTION_KEY) iv tag enc).map (ofUtf8 P)

/-! ## One-time codes -/

def hashOtp (IDENTITY_HMAC_KEY : String) (code identityHmac : String) : String :=
  hex (P.hmacSha256 (fromHex IDENTITY_HMAC_KEY) (utf8 (identityHmac ++ ":" ++ code)))

/-- `timingSafeEqual` throws for texts of two lengths; it is not called then. -/
def safeEqualHex (a b : String) : Bool := fromHex a = fromHex b

/-- The loop of `newOtpCode`, on the bytes that are drawn: the code, and the bytes that are left. -/
def newOtpCode (length : ℕ) (code : String) : Bytes → Option (String × Bytes)
  | [] => if code.length < length then none else some (code, [])
  | b :: draws =>
      if code.length < length then
        newOtpCode length (if (b : ℕ) < 250 then code ++ toString (b % 10 : ℕ) else code) draws
      else some (code, b :: draws)

/-! ## Passwords -/

def scryptR : ℕ := 8
def scryptP : ℕ := 1
def scryptKeyLen : ℕ := 32
def SCRYPT_MAXMEM : ℕ := 192 * 1024 * 1024

/-- `SCRYPT_COST_LOG2`, as the configuration takes it. -/
def costLog2 (n : ℕ) : Prop := 14 ≤ n ∧ n ≤ 20

def scryptN (SCRYPT_COST_LOG2 : ℕ) : ℕ := 2 ^ SCRYPT_COST_LOG2

/-- The key that a password is stored as. -/
def derive (N r p : ℤ) (salt : Bytes) (keyLen : ℕ) (password : String) : Option Bytes :=
  P.scrypt
    { password := utf8 (P.nfkc password)
      salt := salt
      keyLen := keyLen
      N := N
      r := r
      p := p
      maxmem := SCRYPT_MAXMEM }

def hashPassword (SCRYPT_COST_LOG2 : ℕ) (salt : Bytes) (password : String) : Option String :=
  let N := scryptN SCRYPT_COST_LOG2
  (derive P N scryptR scryptP salt scryptKeyLen password).map fun hash =>
    "$".intercalate ["scrypt", toString N, toString scryptR, toString scryptP, base64 salt,
      base64 hash]

/-- `split` of a text at a character. -/
def split (separator : Char) (s : String) : List String :=
  (s.toList.splitOn separator).map String.ofList

def verifyPassword (password stored : String) : Bool :=
  match split '$' stored with
  | [scheme, nRaw, rRaw, pRaw, saltB64, hashB64] =>
      if scheme ≠ "scrypt" then false
      else
        match P.number nRaw, P.number rRaw, P.number pRaw with
        | some N, some r, some p =>
            let expected := fromBase64 hashB64
            if expected.length = 0 then false
            else
              match derive P N r p (fromBase64 saltB64) expected.length password with
              -- absurd parameters in a tampered record
              | none => false
              | some actual => actual = expected
        | _, _, _ => false
  | _ => false

/-! ## Codes and passwords that are handed out -/

def passwordAlphabet : List Char :=
  "abcdefghjkmnpqrstuvwxyzABCDEFGHJKMNPQRSTUVWXYZ23456789".toList

def codeAlphabet : List Char := "ABCDEFGHJKMNPQRSTUVWXYZ23456789".toList

def pick (alphabet : List Char) {n : ℕ} (randomBytes : Fin n → Byte) : String :=
  String.ofList (List.ofFn fun i => Sampling.pick alphabet '?' (randomBytes i))

def newAdminPassword (randomBytes : Fin 4 → Fin 5 → Byte) : String :=
  "-".intercalate (List.ofFn fun i => pick passwordAlphabet (randomBytes i))

def shortCode (randomBytes : Fin 2 → Fin 4 → Byte) : String :=
  "-".intercalate (List.ofFn fun i => pick codeAlphabet (randomBytes i))

end Crypto
end Sahay
