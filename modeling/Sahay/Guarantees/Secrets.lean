import Mathlib.Algebra.BigOperators.Field
import Sahay.Guarantees.Sessions
import Sahay.Server.Crypto

/-!
# Secrets are stored as they can be checked

What is encrypted can be decrypted; what is stored of a password or a code is met by that password
and that code, and by others only where the hash collides; and what is drawn at random can be
guessed no better than its length says.
-/

namespace Sahay

namespace Crypto

variable {P : Primitives}

/-! ## Texts and bytes -/

theorem fromHex_hex (bs : Bytes) : fromHex (hex bs) = bs := by
  rw [fromHex, hex, String.toList_ofList, Bytes.ofHex_toHex]

theorem fromBase64_base64 (bs : Bytes) : fromBase64 (base64 bs) = bs := by
  rw [fromBase64, base64, String.toList_ofList, Bytes.ofBase64_toBase64]

theorem byteArray_utf8 (s : String) :
    (⟨((utf8 s).map UInt8.ofFin).toArray⟩ : ByteArray) = s.toByteArray := by
  have hbyte : UInt8.ofFin ∘ UInt8.toFin = id := rfl
  apply ByteArray.ext
  rw [utf8, List.map_map, hbyte, List.map_id, String.toUTF8_eq_toByteArray]

theorem ofUtf8_utf8 (s : String) : ofUtf8 P (utf8 s) = s := by
  rw [ofUtf8, byteArray_utf8, String.fromUTF8?, dif_pos s.isValidUTF8, Option.getD_some]
  rfl

theorem utf8_injective : Function.Injective utf8 := by
  intro s s' h
  apply String.toByteArray_inj.mp
  rw [← byteArray_utf8, h, byteArray_utf8]

theorem split_intercalate {c : Char} {parts : List String} (hne : parts ≠ [])
    (h : ∀ part ∈ parts, c ∉ part.toList) :
    split c ((String.singleton c).intercalate parts) = parts := by
  have hlists : ∀ l ∈ parts.map String.toList, c ∉ l := by
    intro l hl
    obtain ⟨part, hpart, rfl⟩ := List.mem_map.mp hl
    exact h part hpart
  rw [split, String.toList_intercalate, String.toList_singleton,
    List.splitOn_intercalate c hlists (by simpa using hne), List.map_map]
  have hid : String.ofList ∘ String.toList = id := by
    funext s
    exact String.ofList_toList
  rw [hid, List.map_id]

/-! ## Addresses -/

/-- What has been encrypted is decrypted, and no two texts or vectors make the same payload. -/
theorem decryptPii_encryptPii (hP : P.Lawful) {key : String} {iv : Bytes} (hiv : iv.length = 12)
    (plaintext : String) :
    decryptPii P key (encryptPii P key iv plaintext) = some plaintext ∧
      ∀ iv' plaintext', iv'.length = 12 →
        encryptPii P key iv' plaintext' = encryptPii P key iv plaintext →
          iv' = iv ∧ plaintext' = plaintext := by
  have hvector {iv : Bytes} (hiv : iv.length = 12) (plaintext : String) :
      (fromBase64 (encryptPii P key iv plaintext)).take 12 = iv := by
    rw [encryptPii, fromBase64_base64, List.append_assoc, List.take_left' hiv]
  have hread {iv : Bytes} (hiv : iv.length = 12) (plaintext : String) :
      decryptPii P key (encryptPii P key iv plaintext) = some plaintext := by
    have htag := hP.tag_length (fromHex key) iv (utf8 plaintext)
    have henc : (iv ++ (P.gcmSeal (fromHex key) iv (utf8 plaintext)).2).length = 28 := by
      rw [List.length_append, hiv, htag]
    rw [decryptPii, hvector hiv plaintext, encryptPii, fromBase64_base64,
      List.drop_left' henc, List.append_assoc, List.drop_left' hiv, List.take_left' htag,
      hP.opens, Option.map_some, ofUtf8_utf8]
  refine ⟨hread hiv plaintext, fun iv' plaintext' hiv' hsame => ?_⟩
  constructor
  · rw [← hvector hiv' plaintext', hsame, hvector hiv plaintext]
  · have htext := hread hiv' plaintext'
    rw [hsame, hread hiv plaintext] at htext
    exact (Option.some.inj htext).symm

/-! ## One-time codes -/

theorem safeEqualHex_hex (a b : Bytes) : safeEqualHex (hex a) (hex b) = decide (a = b) := by
  rw [safeEqualHex, fromHex_hex, fromHex_hex]

def Collide (f : Bytes → Bytes) (a b : Bytes) : Prop := a ≠ b ∧ f a = f b

theorem append_cons_inj {α : Type*} {c : α} {l l' r r' : List α} (hl : c ∉ l) (hl' : c ∉ l')
    (h : l ++ c :: r = l' ++ c :: r') : l = l' ∧ r = r' := by
  induction l generalizing l' with
  | nil =>
      cases l' with
      | nil => exact ⟨rfl, (List.cons.inj h).2⟩
      | cons a l' =>
          rw [(List.cons.inj h).1] at hl'
          exact absurd List.mem_cons_self hl'
  | cons a l ih =>
      cases l' with
      | nil =>
          rw [← (List.cons.inj h).1] at hl
          exact absurd List.mem_cons_self hl
      | cons a' l' =>
          obtain ⟨rfl, htail⟩ := List.cons.inj h
          obtain ⟨rfl, hr⟩ := ih (fun hc => hl (List.mem_cons_of_mem _ hc))
            (fun hc => hl' (List.mem_cons_of_mem _ hc)) htail
          exact ⟨rfl, hr⟩

theorem otpText_inj {d d' : Bytes} {code code' : String}
    (h : hex d ++ ":" ++ code = hex d' ++ ":" ++ code') : d = d' ∧ code = code' := by
  have hcolon (d : Bytes) : ':' ∉ Bytes.toHex d := by
    intro hmem
    exact absurd (Bytes.isHexDigit_of_mem_toHex hmem) (by decide)
  have hlists : Bytes.toHex d ++ ':' :: code.toList = Bytes.toHex d' ++ ':' :: code'.toList := by
    have htext := congrArg String.toList h
    simpa [hex] using htext
  obtain ⟨hdigits, hcode⟩ := append_cons_inj (hcolon d) (hcolon d') hlists
  exact ⟨Bytes.toHex_injective hdigits, String.toList_inj.mp hcode⟩

/-- What is stored of a code is met by that code for that address, and by another code or at
another address only where the keyed hash collides. -/
theorem safeEqualHex_hashOtp (key : String) (code code' : String) (d d' : Bytes) :
    safeEqualHex (hashOtp P key code (hex d)) (hashOtp P key code' (hex d')) = true ↔
      (code = code' ∧ d = d') ∨
        Collide (P.hmacSha256 (fromHex key)) (utf8 (hex d ++ ":" ++ code))
          (utf8 (hex d' ++ ":" ++ code')) := by
  rw [hashOtp, hashOtp, safeEqualHex_hex, decide_eq_true_iff]
  constructor
  · intro hsame
    by_cases htext : hex d ++ ":" ++ code = hex d' ++ ":" ++ code'
    · obtain ⟨hd, hcode⟩ := otpText_inj htext
      exact .inl ⟨hcode, hd⟩
    · exact .inr ⟨fun hbytes => htext (utf8_injective hbytes), hsame⟩
  · rintro (⟨rfl, rfl⟩ | ⟨-, hsame⟩)
    · rfl
    · exact hsame

def otpDigit (b : Byte) : Option (Fin 10) :=
  if (b : ℕ) < 250 then some (Fin.ofNat 10 b) else none

def otpText (ds : List (Fin 10)) : String :=
  String.ofList (ds.map fun d : Fin 10 => Nat.digitChar d)

theorem toString_digit (d : Fin 10) : toString (d : ℕ) = String.singleton (Nat.digitChar d) := by
  revert d
  decide

theorem otpText_cons (d : Fin 10) (ds : List (Fin 10)) :
    otpText (d :: ds) = toString (d : ℕ) ++ otpText ds := by
  rw [toString_digit]
  apply String.toList_inj.mp
  simp [otpText]

theorem newOtpCode_eq (length : ℕ) (code : String) (draws : Bytes) :
    newOtpCode length code draws =
      (Sampling.collect otpDigit (length - code.length) draws).map fun r =>
        (code ++ otpText r.1, r.2) := by
  induction draws generalizing code with
  | nil =>
      rw [newOtpCode]
      split_ifs with hmore
      · obtain ⟨n, hn⟩ := Nat.exists_eq_succ_of_ne_zero (Nat.sub_ne_zero_of_lt hmore)
        rw [hn, Sampling.collect]
        rfl
      · rw [Nat.sub_eq_zero_of_le (not_lt.mp hmore), Sampling.collect]
        simp [otpText]
  | cons b draws ih =>
      rw [newOtpCode]
      split_ifs with hmore hb
      · obtain ⟨n, hn⟩ := Nat.exists_eq_succ_of_ne_zero (Nat.sub_ne_zero_of_lt hmore)
        have hlast : ((b : ℕ) % 10) = ((Fin.ofNat 10 b : Fin 10) : ℕ) := rfl
        have hlength : length - (code ++ toString ((b : ℕ) % 10)).length = n := by
          rw [hlast, toString_digit, String.length_append, String.length_singleton]
          omega
        rw [ih, hlength, hn, Sampling.collect, otpDigit, if_pos hb]
        simp only [Option.map_map]
        congr 1
        funext r
        rw [Function.comp_apply, hlast, otpText_cons, String.append_assoc]
      · obtain ⟨n, hn⟩ := Nat.exists_eq_succ_of_ne_zero (Nat.sub_ne_zero_of_lt hmore)
        rw [ih, hn, Sampling.collect, otpDigit, if_neg hb]
      · rw [Nat.sub_eq_zero_of_le (not_lt.mp hmore), Sampling.collect]
        simp [otpText]

theorem otpText_injective : Function.Injective otpText := by
  have hdigit : Function.Injective fun d : Fin 10 => Nat.digitChar d := by decide
  intro ds ds' h
  exact List.map_injective_iff.mpr hdigit (String.ofList_inj.mp h)

theorem reads_otpDigit : Sampling.reads otpDigit none = 6 ∧
    ∀ d, Sampling.reads otpDigit (some d) = 25 := by
  decide +kernel

/-- Over all numbers of bytes after which the loop may stop, the draws that make a code add up to
its share. -/
theorem hasSum_newOtpCode (ds : List (Fin 10)) :
    HasSum (fun k => (Fintype.card {draws : Fin k → Byte //
        newOtpCode ds.length "" (List.ofFn draws) = some (otpText ds, [])} : ℝ) / 256 ^ k)
      (1 / 10 ^ ds.length) := by
  have hways (k : ℕ) : Fintype.card {draws : Fin k → Byte //
      newOtpCode ds.length "" (List.ofFn draws) = some (otpText ds, [])} =
        Sampling.ways otpDigit k ds := by
    rw [Sampling.ways]
    refine Fintype.card_congr (Equiv.subtypeEquivRight fun draws => ?_)
    rw [newOtpCode_eq]
    simp only [String.length_empty, Nat.sub_zero, Option.map_eq_some_iff, Prod.mk.injEq,
      String.empty_append]
    constructor
    · rintro ⟨⟨ds', rest⟩, hcollect, htext, rfl⟩
      obtain rfl := otpText_injective htext
      exact hcollect
    · exact fun hcollect => ⟨_, hcollect, rfl, rfl⟩
  obtain ⟨hnone, hsome⟩ := reads_otpDigit
  have haccepts : Sampling.reads otpDigit none < Fintype.card Byte := by
    rw [hnone, Fintype.card_fin]
    decide
  have hsum := Sampling.hasSum_collect haccepts ds
  have hshare : (ds.map fun d => (Sampling.reads otpDigit (some d) : ℝ) /
      ((Fintype.card Byte : ℕ) - Sampling.reads otpDigit none)).prod = 1 / 10 ^ ds.length := by
    simp only [hsome, hnone, List.map_const', List.prod_replicate, Fintype.card_fin]
    rw [← one_div_pow]
    norm_num
  rw [hshare] at hsum
  simpa only [hways, Fintype.card_fin, Nat.cast_ofNat] using hsum

theorem card_newOtpCode_stops (n k : ℕ) :
    Fintype.card {draws : Fin k → Byte //
        (newOtpCode n "" (List.ofFn draws)).map Prod.snd = some []} =
      ∑ v : Fin n → Fin 10, Fintype.card {draws : Fin k → Byte //
        newOtpCode n "" (List.ofFn draws) = some (otpText (List.ofFn v), [])} := by
  have hstops : (Finset.univ.filter fun draws : Fin k → Byte =>
      (newOtpCode n "" (List.ofFn draws)).map Prod.snd = some []) =
        Finset.univ.biUnion fun v : Fin n → Fin 10 => Finset.univ.filter fun draws =>
          newOtpCode n "" (List.ofFn draws) = some (otpText (List.ofFn v), []) := by
    ext draws
    simp only [Finset.mem_filter, Finset.mem_univ, true_and, Finset.mem_biUnion]
    constructor
    · intro hstop
      rw [newOtpCode_eq] at hstop ⊢
      simp only [String.length_empty, Nat.sub_zero, Option.map_map, Option.map_eq_some_iff,
        String.empty_append] at hstop ⊢
      obtain ⟨⟨ds, rest⟩, hcollect, hrest⟩ := hstop
      obtain rfl := Sampling.length_collect hcollect
      exact ⟨ds.get, (ds, rest), hcollect, by rw [List.ofFn_get]; exact congrArg _ hrest⟩
    · rintro ⟨v, hcode⟩
      rw [hcode]
      rfl
  simp only [Fintype.card_subtype]
  rw [hstops, Finset.card_biUnion]
  intro v _ v' _ hne
  rw [Function.onFun, Finset.disjoint_left]
  intro draws hv hv'
  rw [Finset.mem_filter] at hv hv'
  have hsame := Option.some.inj (hv.2.symm.trans hv'.2)
  exact hne (List.ofFn_injective (otpText_injective (congrArg Prod.fst hsame)))

/-- Every code of a length is drawn with the same probability: over all numbers of bytes after
which the loop may stop, the draws that make it add up to its share.  And it stops almost surely. -/
theorem newOtpCode_uniform (ds : List (Fin 10)) :
    HasSum (fun k => (Fintype.card {draws : Fin k → Byte //
        newOtpCode ds.length "" (List.ofFn draws) = some (otpText ds, [])} : ℝ) / 256 ^ k)
      (1 / 10 ^ ds.length) ∧
    HasSum (fun k => (Fintype.card {draws : Fin k → Byte //
        (newOtpCode ds.length "" (List.ofFn draws)).map Prod.snd = some []} : ℝ) / 256 ^ k) 1 := by
  refine ⟨hasSum_newOtpCode ds, ?_⟩
  have hcodes := hasSum_sum (s := Finset.univ) fun (v : Fin ds.length → Fin 10) _ =>
    hasSum_newOtpCode (List.ofFn v)
  simp only [List.length_ofFn, ← Finset.sum_div, ← Nat.cast_sum, ← card_newOtpCode_stops] at hcodes
  have hshares : (∑ _v : Fin ds.length → Fin 10, (1 : ℝ)) / 10 ^ ds.length = 1 := by
    rw [Finset.sum_const, Finset.card_univ, Fintype.card_fun, Fintype.card_fin, Fintype.card_fin,
      nsmul_eq_mul, mul_one, Nat.cast_pow, Nat.cast_ofNat, div_self (by positivity)]
  rw [hshares] at hcodes
  exact hcodes

/-! ## Passwords -/

theorem dollar_notMem_toString (n : ℕ) : '$' ∉ (toString n).toList := by
  intro hmem
  have hdigits : '$' ∈ Nat.toDigits 10 n := by
    rw [← Nat.toList_repr]
    exact hmem
  exact absurd (Nat.isDigit_of_mem_toDigits (by decide) (by decide) hdigits) (by decide)

theorem dollar_notMem_base64 (bs : Bytes) : '$' ∉ (base64 bs).toList := by
  rw [base64, String.toList_ofList]
  intro hmem
  exact absurd (Bytes.mem_toBase64 hmem) (by decide)

theorem verifyPassword_join (hP : P.Lawful) {N : ℕ} (hN : N < 2 ^ 53) (salt hash : Bytes)
    (hhash : hash.length ≠ 0) (given : String) :
    verifyPassword P given ("$".intercalate ["scrypt", toString N, toString scryptR,
        toString scryptP, base64 salt, base64 hash]) =
      (derive P N scryptR scryptP salt hash.length given).any (· = hash) := by
  have hparts : ∀ part ∈ ["scrypt", toString N, toString scryptR, toString scryptP, base64 salt,
      base64 hash], '$' ∉ part.toList := by
    intro part hpart
    simp only [List.mem_cons, List.not_mem_nil, or_false] at hpart
    rcases hpart with rfl | rfl | rfl | rfl | rfl | rfl
    · decide
    · exact dollar_notMem_toString _
    · exact dollar_notMem_toString _
    · exact dollar_notMem_toString _
    · exact dollar_notMem_base64 _
    · exact dollar_notMem_base64 _
  have hdollar : "$" = String.singleton '$' := rfl
  rw [verifyPassword, hdollar, split_intercalate (List.cons_ne_nil _ _) hparts]
  simp only [hP.number_toString _ hN, hP.number_toString scryptR (by decide),
    hP.number_toString scryptP (by decide), fromBase64_base64]
  rw [if_neg (not_not.mpr rfl), if_neg hhash]
  cases derive P N scryptR scryptP salt hash.length given <;> rfl

theorem derive_isSome_iff (hP : P.Lawful) {n : ℕ} (hn : costLog2 n) (salt : Bytes)
    (password : String) :
    (derive P (scryptN n) scryptR scryptP salt scryptKeyLen password).isSome ↔ n ≤ 17 := by
  obtain ⟨hlow, hhigh⟩ := hn
  constructor
  · intro hsome
    by_contra hlarge
    have hpow : 2 ^ 18 ≤ 2 ^ n := Nat.pow_le_pow_right (by decide) (by omega)
    rw [derive, hP.scrypt_eq_none] at hsome
    · cases hsome
    · simp only [SCRYPT_MAXMEM, scryptN, scryptR]
      push_cast
      have hcast : (2 : ℤ) ^ 18 ≤ 2 ^ n := by exact_mod_cast hpow
      omega
  · intro hsmall
    have hpow : 2 ^ n ≤ 2 ^ 17 := Nat.pow_le_pow_right (by decide) hsmall
    refine hP.scrypt_isSome _ n 8 1 (by omega) (by omega) (by omega) (by decide) (by decide) ?_
      rfl rfl ?_
    · simp [scryptN]
    · simp only [SCRYPT_MAXMEM]
      omega

theorem hashPassword_isSome_iff (hP : P.Lawful) {n : ℕ} (hn : costLog2 n) (salt : Bytes)
    (password : String) : (hashPassword P n salt password).isSome ↔ n ≤ 17 := by
  rw [hashPassword, Option.isSome_map]
  exact derive_isSome_iff hP hn salt password

theorem verifyPassword_eq_true_iff (hP : P.Lawful) {n : ℕ} (hn : costLog2 n) {salt : Bytes}
    {password stored : String} (hstored : hashPassword P n salt password = some stored)
    (given : String) :
    verifyPassword P given stored = true ↔
      derive P (scryptN n) scryptR scryptP salt scryptKeyLen given =
        derive P (scryptN n) scryptR scryptP salt scryptKeyLen password := by
  obtain ⟨hash, hhash, rfl⟩ := Option.map_eq_some_iff.mp hstored
  have hlength : hash.length = scryptKeyLen := hP.scrypt_length _ _ hhash
  have hN : scryptN n < 2 ^ 53 :=
    Nat.pow_lt_pow_right (by decide) (lt_of_le_of_lt hn.2 (by decide))
  have hne : hash.length ≠ 0 := by
    rw [hlength]
    decide
  rw [verifyPassword_join hP hN salt hash hne, hlength, hhash]
  cases derive P (scryptN n) scryptR scryptP salt scryptKeyLen given with
  | none => simp
  | some actual => simp

/-- Of the costs that the configuration takes, those up to 17 fit into the memory that the hash is
given.  What is stored then is met by the passwords with the same key, whatever the cost is at the
time of the check. -/
theorem verifyPassword_hashPassword (hP : P.Lawful) {n : ℕ} (hn : costLog2 n) (salt : Bytes)
    (password : String) :
    ((hashPassword P n salt password).isSome ↔ n ≤ 17) ∧
      ∀ stored, hashPassword P n salt password = some stored →
        ∀ given, verifyPassword P given stored = true ↔
          derive P (scryptN n) scryptR scryptP salt scryptKeyLen given =
            derive P (scryptN n) scryptR scryptP salt scryptKeyLen password :=
  ⟨hashPassword_isSome_iff hP hn salt password, fun _ => verifyPassword_eq_true_iff hP hn⟩

/-! ## Under the accounts -/

/-- What the accounts take of `lib/crypto.ts`; the salt and the vector are those of a call. -/
def authLib (P : Primitives) (PII_ENCRYPTION_KEY IDENTITY_HMAC_KEY : String)
    (SCRYPT_COST_LOG2 : ℕ) (salt iv : Bytes) (lib : TextLib) : AuthLib :=
  { lib with
    encryptPii := encryptPii P PII_ENCRYPTION_KEY iv
    verifyPassword := verifyPassword P
    hashOtp := hashOtp P IDENTITY_HMAC_KEY
    hashPassword := fun password => (hashPassword P SCRYPT_COST_LOG2 salt password).getD ""
    hashes := (hashPassword P SCRYPT_COST_LOG2 salt "").isSome }

theorem hashOtp_eq_iff (key code code' ident ident' : String) :
    hashOtp P key code ident = hashOtp P key code' ident' ↔
      safeEqualHex (hashOtp P key code ident) (hashOtp P key code' ident') = true := by
  rw [hashOtp, hashOtp, safeEqualHex_hex, decide_eq_true_iff]
  constructor
  · intro h
    rw [← fromHex_hex (P.hmacSha256 _ _), h, fromHex_hex]
  · exact fun h => by rw [h]

/-- The password that a call has left for an account is the one that the account is met by. -/
theorem replaced_verifies (hP : P.Lawful) {piiKey hmacKey : String} {n : ℕ} (hn : costLog2 n)
    (hfits : n ≤ 17) {salt iv : Bytes} {lib : TextLib} {newPassword : String} {userId : UserId}
    {aside : SessionId → Prop} {dir : Directory}
    (h : dir.Replaced (authLib P piiKey hmacKey n salt iv lib) newPassword userId aside)
    {user : User} (huser : dir.users.lookup userId = some user) (given : String) :
    user.passwordHash.any ((authLib P piiKey hmacKey n salt iv lib).verifyPassword given) = true ↔
      derive P (scryptN n) scryptR scryptP salt scryptKeyLen given =
        derive P (scryptN n) scryptR scryptP salt scryptKeyLen newPassword := by
  have hsome := (hashPassword_isSome_iff hP hn salt newPassword).mpr hfits
  obtain ⟨stored, hstored⟩ := Option.isSome_iff_exists.mp hsome
  have hhash : user.passwordHash = some stored := by
    rw [(h.password user huser).1]
    show some ((hashPassword P n salt newPassword).getD "") = some stored
    rw [hstored, Option.getD_some]
  rw [hhash, Option.any_some]
  exact verifyPassword_eq_true_iff hP hn hstored given

theorem hashes_authLib (hP : P.Lawful) {n : ℕ} (hn : costLog2 n)
    (PII_ENCRYPTION_KEY IDENTITY_HMAC_KEY : String) (salt iv : Bytes) (lib : TextLib) :
    (authLib P PII_ENCRYPTION_KEY IDENTITY_HMAC_KEY n salt iv lib).hashes = decide (n ≤ 17) := by
  rw [Bool.eq_iff_iff, decide_eq_true_iff]
  exact hashPassword_isSome_iff hP hn salt ""

/-- A client without secrets learns nothing about accounts exactly where the cost fits into the
memory of a hash: else the dummy hash that stands in for an unknown username cannot be made. -/
theorem hidesAccounts_iff (hP : P.Lawful) {n : ℕ} (hn : costLog2 n)
    (PII_ENCRYPTION_KEY IDENTITY_HMAC_KEY : String) (salt iv : Bytes) (lib : TextLib) :
    Auth.HidesAccounts (authLib P PII_ENCRYPTION_KEY IDENTITY_HMAC_KEY n salt iv lib) ↔
      n ≤ 17 := by
  have hhashes := hashes_authLib hP hn PII_ENCRYPTION_KEY IDENTITY_HMAC_KEY salt iv lib
  constructor
  · intro hhides
    by_contra hlarge
    -- a record that no password meets
    have hwrong : (authLib P PII_ENCRYPTION_KEY IDENTITY_HMAC_KEY n salt iv lib).verifyPassword
        "guess" "" = false := rfl
    exact Auth.not_hidesAccounts (hhashes.trans (decide_eq_false hlarge)) hwrong hhides
  · intro hsmall cfg st st' calls halike hno hno'
    exact Auth.responses_eq_of_alike (hhashes.trans (decide_eq_true hsmall)) halike hno hno'

/-! ## Guesses -/

theorem dash_notMem_pick {alphabet : List Char} (hdash : '-' ∉ alphabet) {l : ℕ}
    (draws : Fin l → Byte) : '-' ∉ (pick alphabet draws).toList := by
  rw [pick, String.toList_ofList, List.mem_ofFn]
  rintro ⟨i, hi⟩
  rw [Sampling.pick, List.getD_eq_getElem?_getD] at hi
  cases hletter : alphabet[(draws i : ℕ) % alphabet.length]? with
  | none =>
      rw [hletter] at hi
      exact absurd hi (by decide)
  | some c =>
      rw [hletter, Option.getD_some] at hi
      rw [← hi] at hdash
      exact hdash (List.mem_of_getElem? hletter)

theorem card_groups_le {alphabet : List Char} {m : ℕ} (hnodup : alphabet.Nodup)
    (hdash : '-' ∉ alphabet) (hm : 256 ≤ m * alphabet.length) {g l : ℕ} (hg : 0 < g) (s : String) :
    Fintype.card {draws : Fin g → Fin l → Byte //
      "-".intercalate (List.ofFn fun i => pick alphabet (draws i)) = s} ≤ (m ^ l) ^ g := by
  have hletter (c : Char) : Fintype.card {b : Byte // Sampling.pick alphabet '?' b = c} ≤ m :=
    Sampling.card_pick_le hnodup hm c
  have hgroup (s : String) :
      Fintype.card {draws : Fin l → Byte // pick alphabet draws = s} ≤ m ^ l := by
    have hletters := Sampling.card_agree_le (ι := Fin l) hletter
      (fun draws => pick alphabet draws = s) fun d d' hd hd' i => ?_
    · rw [Fintype.card_fin] at hletters
      exact hletters
    · have hsame := String.ofList_inj.mp (hd.trans hd'.symm)
      exact congrFun (List.ofFn_injective hsame) i
  have hgroups := Sampling.card_agree_le (ι := Fin g) hgroup
    (fun draws => "-".intercalate (List.ofFn fun i => pick alphabet (draws i)) = s)
    fun d d' hd hd' i => ?_
  · rw [Fintype.card_fin] at hgroups
    exact hgroups
  · have hsplit (d : Fin g → Fin l → Byte) : split '-' ("-".intercalate
        (List.ofFn fun i => pick alphabet (d i))) = List.ofFn fun i => pick alphabet (d i) := by
      refine split_intercalate (c := '-') ?_ ?_
      · intro hnil
        have hlength := congrArg List.length hnil
        rw [List.length_ofFn, List.length_nil] at hlength
        omega
      · intro part hpart
        obtain ⟨i, rfl⟩ := List.mem_ofFn.mp hpart
        exact dash_notMem_pick hdash (d i)
    have hsame : List.ofFn (fun i => pick alphabet (d i)) =
        List.ofFn fun i => pick alphabet (d' i) := by
      rw [← hsplit d, ← hsplit d', hd, hd']
    exact congrFun (List.ofFn_injective hsame) i

/-- No generated password is drawn with a probability above `2⁻¹¹³`, and no code of an event with
one above `2⁻³⁸`. -/
theorem draws_hard_to_guess (s : String) :
    Fintype.card {draws // newAdminPassword draws = s} * 2 ^ 113 ≤
        Fintype.card (Fin 4 → Fin 5 → Byte) ∧
      Fintype.card {draws // shortCode draws = s} * 2 ^ 38 ≤
        Fintype.card (Fin 2 → Fin 4 → Byte) := by
  constructor
  · have hbound : Fintype.card {draws // newAdminPassword draws = s} ≤ (5 ^ 5) ^ 4 :=
      card_groups_le (by decide) (by decide) (by decide) (by decide) s
    calc Fintype.card {draws // newAdminPassword draws = s} * 2 ^ 113
        ≤ (5 ^ 5) ^ 4 * 2 ^ 113 := Nat.mul_le_mul_right _ hbound
      _ ≤ (256 ^ 5) ^ 4 := by norm_num
      _ = Fintype.card (Fin 4 → Fin 5 → Byte) := by
          simp only [Fintype.card_fun, Fintype.card_fin]
  · have hbound : Fintype.card {draws // shortCode draws = s} ≤ (9 ^ 4) ^ 2 :=
      card_groups_le (by decide) (by decide) (by decide) (by decide) s
    calc Fintype.card {draws // shortCode draws = s} * 2 ^ 38
        ≤ (9 ^ 4) ^ 2 * 2 ^ 38 := Nat.mul_le_mul_right _ hbound
      _ ≤ (256 ^ 4) ^ 2 := by norm_num
      _ = Fintype.card (Fin 2 → Fin 4 → Byte) := by
          simp only [Fintype.card_fun, Fintype.card_fin]

/-! ## Non-vacuity -/

/-- Nothing is hidden, and what does not fit into the memory is refused. -/
def plain : Primitives where
  gcmSeal := fun key iv text => (text, (iv ++ key ++ Bytes.zeros 16).take 16)
  gcmOpen := fun key iv tag text =>
    if tag = (iv ++ key ++ Bytes.zeros 16).take 16 then some text else none
  hmacSha256 := fun key text => key ++ text
  scrypt := fun call =>
    if call.maxmem < 128 * call.N * call.r then none
    else
      let key := call.password ++ call.salt ++ Bytes.zeros call.keyLen
      some (key.take call.keyLen)
  nfkc := fun s => s
  number := fun s =>
    if s.toList.all Char.isDigit then some (Nat.ofDigitChars 10 s.toList 0 : ℤ) else none
  utf8Lossy := fun _ => "?"

theorem plain_lawful : plain.Lawful where
  opens := fun _ _ _ => if_pos rfl
  tag_length := by
    intro key iv text
    show ((iv ++ key ++ Bytes.zeros 16).take 16).length = 16
    rw [List.length_take, List.length_append, Bytes.length_zeros]
    omega
  number_toString := by
    intro n _
    have htext : (toString n).toList = Nat.toDigits 10 n := Nat.toList_repr
    have hdigits : (Nat.toDigits 10 n).all Char.isDigit = true := by
      rw [List.all_eq_true]
      exact fun c hc => Nat.isDigit_of_mem_toDigits (by decide) (by decide) hc
    show (if (toString n).toList.all Char.isDigit = true then _ else _) = _
    rw [htext, if_pos hdigits, Nat.ofDigitChars_toDigits (by decide) (by decide)]
  scrypt_length := by
    intro call key hkey
    obtain ⟨-, hkey⟩ := Option.ite_none_left_eq_some.mp hkey
    obtain rfl := Option.some.inj hkey
    rw [List.length_take, List.length_append, Bytes.length_zeros]
    omega
  scrypt_isSome := by
    intro call k r p _ _ _ _ _ hN hr _ hfits
    have hlarge : ¬((call.maxmem : ℤ) < 128 * call.N * call.r) := by
      rw [hN, hr, not_lt]
      calc 128 * ((2 ^ k : ℕ) : ℤ) * (r : ℕ) = ((128 * r * 2 ^ k : ℕ) : ℤ) := by push_cast; ring
        _ ≤ (call.maxmem : ℤ) := by
            rw [Nat.mul_add] at hfits
            exact_mod_cast le_trans (by omega) hfits
    show (if (call.maxmem : ℤ) < 128 * call.N * call.r then none else some _).isSome = true
    rw [if_neg hlarge]
    rfl
  scrypt_eq_none := fun _ hlarge => if_pos hlarge

def someKey : String := "000102030405060708090a0b0c0d0e0f101112131415161718191a1b1c1d1e1f"

theorem decryptPii_encryptPii_address :
    decryptPii plain someKey (encryptPii plain someKey (List.replicate 12 7) "asha@example.com") =
        some "asha@example.com" ∧
      ∀ iv' plaintext', iv'.length = 12 → encryptPii plain someKey iv' plaintext' =
        encryptPii plain someKey (List.replicate 12 7) "asha@example.com" →
          iv' = List.replicate 12 7 ∧ plaintext' = "asha@example.com" :=
  decryptPii_encryptPii plain_lawful (by decide) "asha@example.com"

/-- The accounts over `plain`, at a cost. -/
def plainAccounts (SCRYPT_COST_LOG2 : ℕ) : AuthLib :=
  authLib plain someKey someKey SCRYPT_COST_LOG2 (Bytes.zeros 16) (Bytes.zeros 12) SmallEvent.text

/-- One address and one username are tried with wrong codes and a wrong password: at the default
cost the answers do not show that there is an account. -/
theorem hidesAccounts_default :
    Auth.responses {} (plainAccounts 16) Auth.withAsha Auth.guesses =
      Auth.responses {} (plainAccounts 16) Auth.withoutAsha Auth.guesses := by
  refine (hidesAccounts_iff plain_lawful ⟨by decide, by decide⟩ _ _ _ _ _).mpr (by decide) {} _ _ _
    ⟨rfl, rfl⟩ ?_ ?_
  · decide +kernel
  · decide +kernel

/-- At the cost 18, where an account was hashed at 16 with the password `sun`: a wrong password is
refused for it, and nothing is refused for an unknown username: the call fails. -/
theorem hidesAccounts_fails : ¬Auth.HidesAccounts (plainAccounts 18) := by
  have hsome := (hashPassword_isSome_iff plain_lawful (n := 16) ⟨by decide, by decide⟩
    (Bytes.zeros 16) "sun").mpr (by decide)
  obtain ⟨stored, hstored⟩ := Option.isSome_iff_exists.mp hsome
  have hmet := verifyPassword_eq_true_iff plain_lawful ⟨by decide, by decide⟩ hstored "guess"
  have hwrong : (plainAccounts 18).verifyPassword "guess" stored = false := by
    rw [← Bool.not_eq_true]
    exact fun hguess => absurd (hmet.mp hguess) (by decide +kernel)
  exact Auth.not_hidesAccounts
    (hashes_authLib plain_lawful ⟨by decide, by decide⟩ someKey someKey _ _ _) hwrong

theorem verifyPassword_hashPassword_default : ∃ stored,
    hashPassword plain 16 [1, 2] "sun" = some stored ∧
      verifyPassword plain "sun" stored = true := by
  obtain ⟨hsome, hmet⟩ :=
    verifyPassword_hashPassword plain_lawful (n := 16) ⟨by decide, by decide⟩ [1, 2] "sun"
  obtain ⟨stored, hstored⟩ := Option.isSome_iff_exists.mp (hsome.mpr (by decide))
  exact ⟨stored, hstored, (hmet stored hstored "sun").mpr rfl⟩

end Crypto
end Sahay
