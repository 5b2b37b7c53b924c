/-
SealedState.Proofs.StrictOperations — no operation is used outside of its
domain.

Some operations are only defined in a domain: the element at an index, the
difference of natural numbers, a part of a byte string or of a text up to
an offset, a cipher for a key and an initialisation vector of fixed
lengths. The definitions of the library do without them where a total one
says the same. Here they stand as such, each stopped by a `Violation`
outside of its domain, and the functions of the library are written with
them: a token is cut by indexes and byte offsets (`Strict.parse`), a
cipher is set up from keys that have been looked at before
(`Strict.encrypt`), a derived key is cut to what the cipher needs
(`Strict.edition`).

`Strict.no_violation` says that these give what the library gives, for
all texts, codecs and settings: no violation is ever reached.

The failures of SPEC_FULL.md §7 are errors that a caller is given; a violation
is none of them.
-/
import SealedState.Proofs.SettingsTheorems
import SealedState.Proofs.Utf8Theorems

namespace SealedState

/-! ## Operations with a domain -/

/-- The use of an operation outside of its domain. -/
inductive Violation
  | index (index length : Nat)
  | underflow (minuend subtrahend : Nat)
  | bound (stop length : Nat)
  | boundary (offset : Nat)
  | keyLength (expected got : Nat)
  | ivLength (expected got : Nat)

/-- A function that may fail, and would be stopped by a violation. -/
abbrev Strict (ε α : Type) : Type := ExceptT ε (Except Violation) α

namespace Strict

variable {ε ε' α β : Type}

/-- What a function without such operations gives. -/
def lift (r : Except ε α) : Strict ε α := ExceptT.mk (.ok r)

/-- Changes what a function gives, its errors included. -/
def adapt (f : Except ε α → Except ε' β) (x : Strict ε α) : Strict ε' β :=
  ExceptT.mk (f <$> x.run)

/-- Stops at a violation. -/
def stop (v : Violation) : Strict ε α := ExceptT.mk (.error v)

/-- An element of a list by its index. -/
def element (xs : List α) (i : Nat) : Strict ε α :=
  match xs[i]? with
  | some x => pure x
  | none => stop (.index i xs.length)

/-- A difference of natural numbers. -/
def difference (a b : Nat) : Strict ε Nat :=
  if b ≤ a then pure (a - b) else stop (.underflow a b)

/-- The first bytes of a byte string. -/
def firstBytes (n : Nat) (b : Bytes) : Strict ε Bytes :=
  if n ≤ b.length then pure (b.take n) else stop (.bound n b.length)

/-- The text before an offset in bytes, which has to lie between two
characters. -/
def textBefore (s : String) (offset : Nat) : Strict ε String := do
  let front ← firstBytes offset (Utf8.encode s)
  match Utf8.decode? front with
  | some t => pure t
  | none => stop (.boundary offset)

/-- An offset inside of a character is outside of the domain. -/
example : (textBefore "\u20ac" 1 : Strict StateError String) = stop (.boundary 1) := rfl

/-- A key for a cipher, which takes keys of one length. -/
def cipherKey (c : Cipher) (key : Bytes) : Strict ε Bytes :=
  if key.length = c.keyLength then pure key else stop (.keyLength c.keyLength key.length)

/-- An initialisation vector for a cipher. -/
def nonce (iv : Bytes) : Strict ε Bytes :=
  if iv.length = SealedState.ivLength then pure iv
  else stop (.ivLength SealedState.ivLength iv.length)

/-! ## The library with these operations -/

/-- The signed text of a token ends one byte before the field of the tag,
which is the last one. -/
def signedPart (text : String) (tagField : List Char) : Strict ε String := do
  let tagLength := (Utf8.encode (String.ofList tagField)).length
  let tagStart ← difference (Utf8.encode text).length tagLength
  let signedEnd ← difference tagStart 1
  textBefore text signedEnd

/-- Takes the text of a token apart. -/
def parse (text : String) : Strict Token.Malformation Token := do
  let fields := splitAll Token.separator text.toList
  if fields.length ≠ Token.fieldCount then throw (.fields fields.length)
  let tagField ← element fields 4
  let signed ← signedPart text tagField
  let field ← element fields 0
  let ciphertext ← lift (Token.fieldBytes .ciphertext field)
  let field ← element fields 1
  let time ← lift (Token.fieldBytes .issuedAt field)
  let issuedAt ← lift (Token.parseTime time)
  let field ← element fields 2
  let tenantId ← lift (Token.fieldBytes .tenantId field)
  let field ← element fields 3
  let iv ← lift (Token.fieldBytes .iv field)
  let field ← element fields 4
  let tag ← lift (Token.fieldBytes .tag field)
  return { signed, ciphertext, issuedAt, tenantId, iv, tag }

/-- The lengths of a key and of an initialisation vector are right. -/
def checkLengths (c : Cipher) (key iv : Bytes) : Except CryptoError Unit :=
  if key.length ≠ c.keyLength then .error (.invalidKeyLength c.keyLength key.length)
  else if iv.length ≠ SealedState.ivLength then
    .error (.invalidIvLength SealedState.ivLength iv.length)
  else .ok ()

/-- Encrypts a text. -/
def encrypt (c : Cipher) (key iv text : Bytes) : Strict CryptoError Bytes := do
  lift (checkLengths c key iv)
  let key ← cipherKey c key
  let iv ← nonce iv
  if text.length ≤ Gcm.maxLength then return (Gcm.setup key iv).seal text
  else throw (.encryptionFailed "aead::Error")

/-- Decrypts a sealed text. -/
def decrypt (c : Cipher) (key iv sealed : Bytes) : Strict CryptoError Bytes := do
  lift (checkLengths c key iv)
  let key ← cipherKey c key
  let iv ← nonce iv
  if Gcm.maxLength + Gcm.tagLength < sealed.length then
    throw (.decryptionFailed "aead::Error")
  match (Gcm.setup key iv).open? sealed with
  | some text => return text
  | none => throw (.decryptionFailed "aead::Error")

/-- The token that carries some bytes. -/
def issue (c : Codec) (clear : Bytes) (iv : Iv) (now : Int64) : Strict StateError String := do
  let ciphertext ← adapt Keys.configured (encrypt c.cipher c.provider.encryptionKey iv.val clear)
  let signed := Token.signedText ciphertext now c.provider.tenantId iv.val
  let tag ← lift (Keys.configured
    (c.mac.compute c.provider.authenticationKey (Utf8.encode signed)))
  return Token.withTag signed tag

/-- The token that carries a value. -/
def encode (c : Codec) (now : Int64) (random : RandomSource) {σ : Shape} (v : σ.Val) :
    Except Violation (Logged String × RandomSource) :=
  match c.serializer.serialize σ v with
  | .error e => .ok (⟨.error e, []⟩, random)
  | .ok clear =>
    match random.next with
    | (.error e, random) => .ok (⟨.error e, []⟩, random)
    | (.ok iv, random) => do
      match ← (issue c clear iv now).run with
      | .error e => return (⟨.error e, []⟩, random)
      | .ok token => return (⟨.ok token, [.encoded now token.utf8ByteSize]⟩, random)

/-- The value of an authentic token. -/
def accept (c : Codec) (now : Int64) (σ : Shape) (t : Token) : Except Violation (Logged σ.Val) :=
  if isExpired t.issuedAt c.timeout now then
    .ok ⟨.error (.expired t.issuedAt c.timeout), [.expired t.issuedAt now]⟩
  else if t.tenantId ≠ c.provider.tenantId then
    let given := Hex.encode t.tenantId
    let expected := Hex.encode c.provider.tenantId
    .ok ⟨.error (.tenantMismatch given expected), [.otherTenant given expected]⟩
  else if t.iv.length ≠ SealedState.ivLength then
    .ok ⟨.error (.malformedToken ("iv must be " ++ Nat.repr SealedState.ivLength ++ " bytes, got "
      ++ Nat.repr t.iv.length)), []⟩
  else do
    match ← (decrypt c.cipher c.provider.encryptionKey t.iv t.ciphertext).run with
    | .error e => return ⟨.error (.cryptoConfiguration e.message), []⟩
    | .ok clear =>
      match c.serializer.deserialize σ clear with
      | .error e => return ⟨.error e, []⟩
      | .ok v => return ⟨.ok v, [.decoded t.issuedAt]⟩

/-- The value of a token. -/
def decode (c : Codec) (now : Int64) (σ : Shape) (token : String) :
    Except Violation (Logged σ.Val) := do
  match ← (parse token).run with
  | .error cause =>
    let e := StateError.malformedToken cause.message
    return ⟨.error e, [.rejected e]⟩
  | .ok t =>
    match c.mac.verify c.provider.authenticationKey (Utf8.encode t.signed) t.tag with
    | .error e => return ⟨.error (.cryptoConfiguration e.message), []⟩
    | .ok false => return ⟨.error .authenticity, [.inauthentic]⟩
    | .ok true => accept c now σ t

/-- The value of the token in the first cookie of a name in a header, if
there is one. -/
def restoreFrom (c : Codec) (now : Int64) (σ : Shape) (header name : String) :
    Except Violation (Option (Logged σ.Val)) :=
  match Cookie.find? header name with
  | none => .ok none
  | some cookie => some <$> decode c now σ cookie.value

/-- The edition of settings. -/
def edition (s : Settings) : Strict StateError Edition := do
  let tenantId ← lift s.tenantBytes
  let secret ← lift (Settings.configured (Base64url.decode s.secret) "secret: ")
  let cipher ← lift (Settings.configured (Cipher.ofId s.encryptionAlgorithm) "")
  let mac ← lift (Settings.configured (Mac.ofId s.authenticationAlgorithm) "")
  let derived ← lift (Keys.derive secret)
  let encryption ← firstBytes cipher.keyLength derived.encryption
  lift (Edition.make tenantId cipher mac { derived with encryption })

/-- The codec of settings. -/
def build (s : Settings) : Strict StateError Codec := do
  let edition ← edition s
  let codec ← lift (Codec.ofProvider edition.provider)
  return codec.withTimeout s.timeout

/-! ## No violation -/

theorem lift_bind (r : Except ε α) (f : α → Except ε β) :
    (lift r >>= fun a => lift (f a)) = lift (r >>= f) := by
  cases r <;> rfl

theorem lift_pure (x : α) : (lift (pure x) : Strict ε α) = pure x := rfl

theorem adapt_lift (f : Except ε α → Except ε' β) (r : Except ε α) :
    adapt f (lift r) = lift (f r) := rfl

theorem run_lift (r : Except ε α) : (lift r).run = .ok r := rfl

theorem firstBytes_of_le {n : Nat} {b : Bytes} (h : n ≤ b.length) :
    (firstBytes n b : Strict ε Bytes) = pure (b.take n) := if_pos h

theorem difference_of_le {a b : Nat} (h : b ≤ a) :
    (difference a b : Strict ε Nat) = pure (a - b) := if_pos h

/-- The end of a part of a text lies between two characters. -/
theorem textBefore_append (cs ds : List Char) :
    (textBefore (String.ofList (cs ++ ds)) (Utf8.encode (String.ofList cs)).length
      : Strict ε String) = pure (String.ofList cs) := by
  rw [textBefore, String.ofList_append, Utf8.encode_append, firstBytes_of_le (by simp), pure_bind,
    List.take_left, Utf8.decode?_encode]

theorem exists_five {xs : List α} (h : xs.length = 5) : ∃ a b c d e, xs = [a, b, c, d, e] := by
  match xs, h with
  | [a, b, c, d, e], _ => exact ⟨a, b, c, d, e, rfl⟩

/-- The last separator of a text with five fields. -/
theorem text_of_splitAll {text : String} {a b c d e : List Char}
    (h : splitAll Token.separator text.toList = [a, b, c, d, e]) :
    text = String.ofList (joinWith Token.separator [a, b, c, d] ++ Token.separator :: e) := by
  have hjoin := joinWith_splitAll Token.separator text.toList
  rw [h] at hjoin
  have hparts : [a, b, c, d] ≠ [] := List.cons_ne_nil _ _
  rw [← joinWith_concat e hparts]
  exact (String.ofList_toList).symm.trans (congrArg String.ofList hjoin.symm)

/-- The last field is shorter than the text by a separator at least, and
what is in front of that separator ends between two characters. -/
theorem signedPart_eq (front tagField : List Char) :
    (signedPart (String.ofList (front ++ Token.separator :: tagField)) tagField : Strict ε String)
      = pure (String.ofList front) := by
  have hsize : (Utf8.encode (String.ofList (front ++ Token.separator :: tagField))).length
      = (Utf8.encode (String.ofList front)).length + 1
        + (Utf8.encode (String.ofList tagField)).length := by
    rw [← List.singleton_append, String.ofList_append, String.ofList_append, Utf8.encode_append,
      Utf8.encode_append, List.length_append, List.length_append, Nat.add_assoc]
    rfl
  rw [signedPart, hsize]
  simp only [difference_of_le (Nat.le_add_left _ _), Nat.add_sub_cancel, pure_bind,
    textBefore_append]

theorem parse_of_five {text : String} {a b c d e : List Char}
    (h : splitAll Token.separator text.toList = [a, b, c, d, e]) :
    parse text = lift (Token.parse text) := by
  have hsigned : (signedPart text e : Strict Token.Malformation String)
      = pure (String.ofList (joinWith Token.separator [a, b, c, d])) := by
    rw [text_of_splitAll h]
    exact signedPart_eq _ _
  have helement : ∀ {i : Nat} {x : List Char}, [a, b, c, d, e][i]? = some x →
      (element [a, b, c, d, e] i : Strict Token.Malformation (List Char)) = pure x := by
    intro i x hx
    rw [element, hx]
  rw [parse, Token.parse, h]
  simp only [← lift_bind, lift_pure]
  rw [if_neg (by simp [Token.fieldCount])]
  simp only [helement (i := 4) rfl, helement (i := 0) rfl, helement (i := 1) rfl,
    helement (i := 2) rfl, helement (i := 3) rfl, pure_bind, hsigned]

theorem parse_eq (text : String) : parse text = lift (Token.parse text) := by
  by_cases hlength : (splitAll Token.separator text.toList).length = Token.fieldCount
  · obtain ⟨a, b, c, d, e, hfields⟩ := exists_five hlength
    exact parse_of_five hfields
  · rw [parse, if_pos hlength, Token.parse]
    split
    · rename_i heq
      rw [heq] at hlength
      exact absurd rfl hlength
    · rfl

/-- What follows the check of the lengths is only reached with the right
ones. -/
theorem after_checkLengths {c : Cipher} {key iv : Bytes} {run : Strict CryptoError α}
    {f : Gcm.Setup → Except CryptoError α}
    (h : key.length = c.keyLength → iv.length = SealedState.ivLength →
      run = lift (f (Gcm.setup key iv))) :
    (do
      lift (checkLengths c key iv)
      run) = lift (c.setup key iv >>= f) := by
  rw [Cipher.setup, checkLengths]
  split
  · rfl
  split
  · rfl
  rename_i hkey hiv
  rw [h (Decidable.not_not.1 hkey) (Decidable.not_not.1 hiv)]
  rfl

theorem encrypt_eq (c : Cipher) (key iv text : Bytes) :
    encrypt c key iv text = lift (c.encrypt key iv text) := by
  refine after_checkLengths fun hkey hiv => ?_
  rw [cipherKey, if_pos hkey, nonce, if_pos hiv, pure_bind, pure_bind]
  split <;> rfl

theorem decrypt_eq (c : Cipher) (key iv sealed : Bytes) :
    decrypt c key iv sealed = lift (c.decrypt key iv sealed) := by
  refine after_checkLengths fun hkey hiv => ?_
  rw [cipherKey, if_pos hkey, nonce, if_pos hiv, pure_bind, pure_bind]
  by_cases hlarge : Gcm.maxLength + Gcm.tagLength < sealed.length
  · simp only [if_pos hlarge]
    rfl
  · simp only [if_neg hlarge]
    cases (Gcm.setup key iv).open? sealed <;> rfl

theorem issue_eq (c : Codec) (clear : Bytes) (iv : Iv) (now : Int64) :
    issue c clear iv now = lift (c.issue clear iv now) := by
  rw [issue, Codec.issue, encrypt_eq, adapt_lift]
  simp only [← lift_bind, lift_pure]

theorem encode_eq (c : Codec) (now : Int64) (random : RandomSource) {σ : Shape} (v : σ.Val) :
    encode c now random v = .ok (c.encode now random v) := by
  rw [encode, Codec.encode]
  cases c.serializer.serialize σ v with
  | error e => rfl
  | ok clear =>
    simp only
    cases random.next with
    | mk drawn random =>
      cases drawn with
      | error e => rfl
      | ok iv =>
        simp only [issue_eq, run_lift, ok_bind]
        cases c.issue clear iv now <;> rfl

theorem accept_eq (c : Codec) (now : Int64) (σ : Shape) (t : Token) :
    accept c now σ t = .ok (c.accept now σ t) := by
  rw [accept, Codec.accept]
  split
  · rfl
  split
  · rfl
  split
  · rfl
  rw [decrypt_eq, run_lift, ok_bind]
  cases c.cipher.decrypt c.provider.encryptionKey t.iv t.ciphertext with
  | error e => rfl
  | ok clear =>
    simp only
    cases c.serializer.deserialize σ clear <;> rfl

theorem decode_eq (c : Codec) (now : Int64) (σ : Shape) (token : String) :
    decode c now σ token = .ok (c.decode now σ token) := by
  rw [decode, Codec.decode, parse_eq, run_lift, ok_bind]
  cases Token.parse token with
  | error cause => rfl
  | ok t =>
    simp only
    cases c.mac.verify c.provider.authenticationKey (Utf8.encode t.signed) t.tag with
    | error e => rfl
    | ok authentic =>
      cases authentic with
      | false => rfl
      | true => exact accept_eq c now σ t

theorem restoreFrom_eq (c : Codec) (now : Int64) (σ : Shape) (header name : String) :
    restoreFrom c now σ header name
      = .ok ((Cookie.find? header name).map (c.restore now σ)) := by
  rw [restoreFrom]
  cases Cookie.find? header name with
  | none => rfl
  | some cookie =>
    simp only [decode_eq]
    rfl

/-- A derived key is as long as the longest key of a cipher. -/
theorem keyLength_le_derived {secret : Bytes} {derived : Keys}
    (h : Keys.derive secret = .ok derived) (c : Cipher) :
    c.keyLength ≤ derived.encryption.length := by
  rw [Keys.derive_eq] at h
  split at h
  · cases h
  · cases h
    exact Keys.keyLength_le_ofSecret secret c

theorem edition_eq (s : Settings) : edition s = lift s.edition := by
  rw [edition, Settings.edition]
  -- the stages in front of the derivation are the same on both sides
  simp only [← lift_bind]
  refine bind_congr fun tenantId => bind_congr fun secret => bind_congr fun cipher => ?_
  refine bind_congr fun mac => ?_
  cases hderived : Keys.derive secret with
  | error e => rfl
  | ok derived =>
    have hderive : (lift (.ok derived) : Strict StateError Keys) = pure derived := lift_pure derived
    rw [hderive, pure_bind, pure_bind, firstBytes_of_le (keyLength_le_derived hderived cipher),
      pure_bind]

theorem build_eq (s : Settings) : build s = lift s.build := by
  rw [build, Settings.build, edition_eq]
  simp only [← lift_bind, lift_pure]

/-- With operations that are stopped outside of their domain, texts are
taken apart, states encrypted, decrypted, encoded and decoded, and
settings built as they are without: nothing is ever stopped. -/
theorem no_violation :
    (∀ text : String, parse text = lift (Token.parse text)) ∧
    (∀ (c : Cipher) (key iv text : Bytes),
      encrypt c key iv text = lift (c.encrypt key iv text)) ∧
    (∀ (c : Cipher) (key iv sealed : Bytes),
      decrypt c key iv sealed = lift (c.decrypt key iv sealed)) ∧
    (∀ (c : Codec) (now : Int64) (random : RandomSource) {σ : Shape} (v : σ.Val),
      encode c now random v = .ok (c.encode now random v)) ∧
    (∀ (c : Codec) (now : Int64) (σ : Shape) (token : String),
      decode c now σ token = .ok (c.decode now σ token)) ∧
    (∀ (c : Codec) (now : Int64) (σ : Shape) (header name : String),
      restoreFrom c now σ header name
        = .ok ((Cookie.find? header name).map (c.restore now σ))) ∧
    (∀ s : Settings, edition s = lift s.edition) ∧
    ∀ s : Settings, build s = lift s.build :=
  ⟨parse_eq, encrypt_eq, decrypt_eq, encode_eq, decode_eq, restoreFrom_eq, edition_eq, build_eq⟩

end Strict

end SealedState
