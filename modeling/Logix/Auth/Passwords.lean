import Logix.Js.Hex

/-!
# Which passwords does a stored hash accept?

`PasswordHasher` stores a random salt and the key that is derived from the password, both in
hexadecimal digits, with a colon between them.

* `hash`, `verify`: the code, over any `pbkdf2`;
* **`verify_spec`**: a stored hash accepts the passwords that derive the same key from its salt; and
  which texts are accepted as the hash of a password.

The errors of the derivation are left out.
-/

namespace Logix.Auth.PasswordHasher

/-- `SALT_LENGTH`. -/
def saltLength : ℕ := 16

/-- `ITERATIONS`. -/
def iterations : ℕ := 100000

/-- `KEY_LENGTH`. -/
def keyLength : ℕ := 64

/-- `DIGEST`. -/
def digest : JsString := js "sha512"

/-- The colon. -/
def colon : UInt16 := 58

variable (pbkdf2 : JsString → JsString → ℕ → ℕ → JsString → List UInt8)

/-- The key of a password and a salt. -/
def derive (password salt : JsString) : List UInt8 :=
  pbkdf2 password salt iterations keyLength digest

/-- **`hash(password)`**, with the random bytes that it draws. -/
def hash (saltBytes : List UInt8) (password : JsString) : JsString :=
  let salt := toHex saltBytes
  salt ++ colon :: toHex (derive pbkdf2 password salt)

/-- **`verify(password, combinedHash)`.** -/
def verify (password combinedHash : JsString) : Bool :=
  match combinedHash.splitOn colon with
  | salt :: key :: _ =>
    if salt = [] ∨ key = [] then false
    else
      let derivedKey := derive pbkdf2 password salt
      let keyBuffer := bufferFromHex key
      if keyBuffer.length ≠ derivedKey.length then false else decide (keyBuffer = derivedKey)
  | _ => false

variable {pbkdf2}

theorem exists_splitOn (rest : JsString) :
    ∃ key others, rest.splitOn colon = key :: others ∧ bufferFromHex key = bufferFromHex rest := by
  by_cases h : colon ∈ rest
  · obtain ⟨key, others, rfl, hkey⟩ := List.eq_append_cons_of_mem h
    exact ⟨key, _, List.splitOn_append_cons_self_of_not_mem hkey others,
      (bufferFromHex_append_cons (by decide) key others).symm⟩
  · exact ⟨rest, [], List.splitOn_eq_singleton h, rfl⟩

/-- **A text with a salt** is accepted when the key is read behind the colon. -/
theorem verify_append_cons (hlength : ∀ p s c n d, (pbkdf2 p s c n d).length = n)
    {salt : JsString} (hne : salt ≠ []) (h : colon ∉ salt) (password rest : JsString) :
    verify pbkdf2 password (salt ++ colon :: rest) = true ↔
      bufferFromHex rest = derive pbkdf2 password salt := by
  obtain ⟨key, others, hsplit, hkey⟩ := exists_splitOn rest
  have hverify : verify pbkdf2 password (salt ++ colon :: rest) =
      if salt = [] ∨ key = [] then false
      else if (bufferFromHex key).length ≠ (derive pbkdf2 password salt).length then false
      else decide (bufferFromHex key = derive pbkdf2 password salt) := by
    rw [verify, List.splitOn_append_cons_self_of_not_mem h, hsplit]
  rw [hverify, ← hkey]
  split_ifs with hempty hlen
  · refine iff_of_false id fun heq => ?_
    rw [hempty.resolve_left hne] at heq
    have hzero := congrArg List.length heq
    rw [derive, hlength] at hzero
    exact absurd hzero (by decide)
  · exact iff_of_false id fun heq => hlen (congrArg List.length heq)
  · exact decide_eq_true_iff

theorem colon_not_mem_toHex (bs : List UInt8) : colon ∉ toHex bs := by
  have hdigit : ∀ x < 16, digitUnit x ≠ colon := by decide
  intro hc
  obtain ⟨b, -, hb⟩ := List.mem_flatMap.mp hc
  have hlt := b.toNat_lt
  rw [hexByte, List.mem_cons, List.mem_singleton] at hb
  rcases hb with h | h
  · exact hdigit _ (by omega) h.symm
  · exact hdigit _ (Nat.mod_lt _ (by decide)) h.symm

theorem toHex_ne_nil {bs : List UInt8} (h : bs ≠ []) : toHex bs ≠ [] := by
  intro hnil
  have hbs := bufferFromHex_toHex bs
  rw [hnil] at hbs
  exact h hbs.symm

/-- **A text is accepted** when it has a salt and a colon, and the key of the password follows. -/
theorem verify_eq_true_iff (hlength : ∀ p s c n d, (pbkdf2 p s c n d).length = n)
    (password combinedHash : JsString) :
    verify pbkdf2 password combinedHash = true ↔
      ∃ salt rest, combinedHash = salt ++ colon :: rest ∧ salt ≠ [] ∧ colon ∉ salt ∧
        bufferFromHex rest = derive pbkdf2 password salt := by
  constructor
  · intro h
    have hmem : colon ∈ combinedHash := by
      by_contra hno
      rw [verify, List.splitOn_eq_singleton hno] at h
      exact Bool.false_ne_true h
    obtain ⟨salt, rest, rfl, hsalt⟩ := List.eq_append_cons_of_mem hmem
    have hne : salt ≠ [] := by
      rintro rfl
      obtain ⟨key, others, hsplit, -⟩ := exists_splitOn rest
      rw [verify, List.splitOn_append_cons_self_of_not_mem hsalt, hsplit] at h
      exact Bool.false_ne_true h
    exact ⟨salt, rest, rfl, hne, hsalt, (verify_append_cons hlength hne hsalt password rest).mp h⟩
  · rintro ⟨salt, rest, rfl, hne, hsalt, hkey⟩
    exact (verify_append_cons hlength hne hsalt password rest).mpr hkey

/-- **A stored hash** accepts the passwords that derive the same key from its salt. -/
theorem verify_hash_iff (hlength : ∀ p s c n d, (pbkdf2 p s c n d).length = n)
    {saltBytes : List UInt8} (hsalt : saltBytes.length = saltLength) (attempt password : JsString) :
    verify pbkdf2 attempt (hash pbkdf2 saltBytes password) = true ↔
      derive pbkdf2 attempt (toHex saltBytes) = derive pbkdf2 password (toHex saltBytes) := by
  have hne : saltBytes ≠ [] := by
    rintro rfl
    exact absurd hsalt (by decide)
  rw [hash, verify_append_cons hlength (toHex_ne_nil hne) (colon_not_mem_toHex saltBytes),
    bufferFromHex_toHex]
  exact eq_comm

/-- **What is accepted.** A stored hash accepts the passwords that derive the same key from its
salt. Any text is accepted for a password when it begins with a salt and a colon, the digits of
the key follow, in small letters or in capital ones, and then no two more digits. -/
theorem verify_spec (hlength : ∀ p s c n d, (pbkdf2 p s c n d).length = n)
    {saltBytes : List UInt8} (hsalt : saltBytes.length = saltLength)
    (password attempt combinedHash : JsString) :
    (verify pbkdf2 attempt (hash pbkdf2 saltBytes password) = true ↔
      derive pbkdf2 attempt (toHex saltBytes) = derive pbkdf2 password (toHex saltBytes)) ∧
    (verify pbkdf2 attempt combinedHash = true ↔
      ∃ salt digits tail, combinedHash = salt ++ colon :: (digits ++ tail) ∧ salt ≠ [] ∧
        colon ∉ salt ∧ digits.map lowerHex = toHex (derive pbkdf2 attempt salt) ∧
        bufferFromHex tail = []) := by
  refine ⟨verify_hash_iff hlength hsalt attempt password, ?_⟩
  rw [verify_eq_true_iff hlength]
  constructor
  · rintro ⟨salt, rest, rfl, hne, hcolon, hkey⟩
    obtain ⟨digits, tail, rfl, hdigits, htail⟩ := bufferFromHex_eq_iff.mp hkey
    exact ⟨salt, digits, tail, rfl, hne, hcolon, hdigits, htail⟩
  · rintro ⟨salt, digits, tail, rfl, hne, hcolon, hdigits, htail⟩
    exact ⟨salt, _, rfl, hne, hcolon,
      bufferFromHex_eq_iff.mpr ⟨digits, tail, rfl, hdigits, htail⟩⟩

/-- What `pbkdf2` answers for two passwords, a salt of the bytes from 0 to 15, and the lengths up
to 64. -/
def pbkdf2Answers (password _salt : JsString) (_iterations n : ℕ) (_digest : JsString) :
    List UInt8 :=
  let key : List UInt8 := if password = js "correct horse" then
    [28, 10, 34, 62, 42, 182, 218, 92, 113, 236, 64, 224, 79, 120, 151, 76, 48, 141, 188, 253,
    143, 204, 93, 97, 220, 143, 236, 20, 201, 88, 73, 81, 174, 244, 233, 137, 62, 118, 223, 100,
    179, 151, 116, 7, 14, 16, 15, 81, 68, 74, 115, 110, 74, 76, 212, 207, 186, 124, 196, 206,
    20, 3, 52, 10] else
    [137, 142, 114, 4, 107, 119, 211, 65, 52, 225, 57, 7, 251, 189, 197, 113, 159, 137, 208, 44,
    111, 93, 230, 33, 103, 160, 38, 78, 36, 152, 70, 176, 180, 211, 56, 233, 254, 221, 51, 51,
    210, 171, 224, 230, 186, 92, 29, 233, 74, 236, 82, 111, 67, 201, 204, 62, 193, 147, 142,
    180, 46, 25, 214, 91]
  (key ++ List.replicate n 0).take n

theorem length_pbkdf2Answers (p s : JsString) (c n : ℕ) (d : JsString) :
    (pbkdf2Answers p s c n d).length = n := by
  rw [pbkdf2Answers, List.length_take, List.length_append, List.length_replicate]
  omega

theorem verify_spec_horse :
    verify pbkdf2Answers (js "correct horse")
        (hash pbkdf2Answers ((List.range 16).map .ofNat) (js "correct horse")) = true ∧
      verify pbkdf2Answers (js "wrong horse")
        (hash pbkdf2Answers ((List.range 16).map .ofNat) (js "correct horse")) = false := by
  refine ⟨((verify_spec length_pbkdf2Answers (by decide) _ _ []).1).mpr rfl, ?_⟩
  rw [← Bool.not_eq_true, (verify_spec length_pbkdf2Answers (by decide) _ _ []).1]
  decide

end Logix.Auth.PasswordHasher
