/-
SealedState.Proofs.StageTheorems — decoding as a sequence of stages
(SPEC_FULL.md §4.1, the steps of `decode` and the state machine
behind them).

`Codec.decode` checks the form and the tag of a text, then the lifetime,
the tenant and the initialisation vector of the token, and only then opens
the ciphertext and reads the value. Here each stage is a function of the
data that it looks at and of nothing else, and `decode_eq_stages` says that
decoding runs them one after the other. So what a stage does not take as an
argument has no part in its outcome. What is said of decoding elsewhere is
said from the stages, without taking `Codec.decode` apart again.

A call without a value ends at a `Stop`, and its error and what the log is
told are functions of this. `StopsAt` lists the stops, each with the stages
that the call has passed by then, and `stages_eq_error_iff` says that a call
ends at the stop that is listed for it and at no other.
-/
import SealedState.Proofs.CodecTheorems

namespace SealedState

/-! ## Stops -/

/-- Where a call ends that gives no value, in the order of the stages, with
the data that is told of it. -/
inductive Stop
  | form (cause : Token.Malformation)
  | key (fault : CryptoError)
  | tag
  | lifetime (issuedAt : Int64) (timeout : UInt64) (now : Int64)
  | tenant (given expected : Bytes)
  | vector (length : Nat)
  | ciphertext (fault : CryptoError)
  | value (cause : StateError)
  deriving DecidableEq

namespace Stop

/-- The error of a call that ends there. -/
def error : Stop → StateError
  | form cause => .malformedToken cause.message
  | key fault => .cryptoConfiguration fault.message
  | tag => .authenticity
  | lifetime issuedAt timeout _ => .expired issuedAt timeout
  | tenant given expected => .tenantMismatch (Hex.encode given) (Hex.encode expected)
  | vector length =>
    .malformedToken ("iv must be " ++ Nat.repr ivLength ++ " bytes, got " ++ Nat.repr length)
  | ciphertext fault => .cryptoConfiguration fault.message
  | value cause => cause

/-- What the log is told of it. -/
def events : Stop → List Event
  | form cause => [.rejected (.malformedToken cause.message)]
  | tag => [.inauthentic]
  | lifetime issuedAt _ now => [.expired issuedAt now]
  | tenant given expected => [.otherTenant (Hex.encode given) (Hex.encode expected)]
  | key _ | vector _ | ciphertext _ | value _ => []

/-- A call that ended so. -/
def logged {α : Type} (s : Stop) : Logged α := ⟨.error s.error, s.events⟩

variable {s : Stop}

/-- The notice of expiry comes from the check of the lifetime, or else from a
serializer. -/
theorem error_eq_expired_iff {issuedAt : Int64} {timeout : UInt64} :
    s.error = .expired issuedAt timeout ↔
      (∃ now, s = .lifetime issuedAt timeout now) ∨ s = .value (.expired issuedAt timeout) := by
  cases s <;> simp [error]

/-- An error of the cryptographic configuration comes from one of the keys, or
else from a serializer. -/
theorem error_eq_cryptoConfiguration_iff {reason : String} :
    s.error = .cryptoConfiguration reason ↔
      (∃ fault : CryptoError, fault.message = reason ∧ (s = .key fault ∨ s = .ciphertext fault)) ∨
        s = .value (.cryptoConfiguration reason) := by
  cases s <;> simp [error, eq_comm]

end Stop

/-- A call after its stages: it has stopped, or it gives the value of a
token. -/
def Logged.ofStages {α : Type} : Except Stop (Token × α) → Logged α
  | .error s => s.logged
  | .ok (t, v) => ⟨.ok v, [.decoded t.issuedAt]⟩

namespace Codec

variable {c : Codec} {now : Int64} {σ : Shape} {text : String} {t : Token} {s : Stop}

/-! ## Stages -/

/-- Form and tag. -/
def authenticate (mac : Mac) (key : Bytes) (text : String) : Except Stop Token :=
  match Token.parse text with
  | .error cause => .error (.form cause)
  | .ok t =>
    match mac.verify key (Utf8.encode t.signed) t.tag with
    | .error fault => .error (.key fault)
    | .ok false => .error .tag
    | .ok true => .ok t

def checkLifetime (timeout : UInt64) (now : Int64) (t : Token) : Except Stop Token :=
  if isExpired t.issuedAt timeout now then .error (.lifetime t.issuedAt timeout now) else .ok t

def checkTenant (tenantId : Bytes) (t : Token) : Except Stop Token :=
  if t.tenantId ≠ tenantId then .error (.tenant t.tenantId tenantId) else .ok t

def checkIv (t : Token) : Except Stop Token :=
  if t.iv.length ≠ ivLength then .error (.vector t.iv.length) else .ok t

/-- The token of a text that has passed all checks. -/
def checked (c : Codec) (now : Int64) (text : String) : Except Stop Token := do
  let t ← authenticate c.mac c.provider.authenticationKey text
  let t ← checkLifetime c.timeout now t
  let t ← checkTenant c.provider.tenantId t
  checkIv t

/-- The value in the ciphertext of a token. -/
def reveal (c : Codec) (σ : Shape) (t : Token) : Except Stop σ.Val :=
  match c.cipher.decrypt c.provider.encryptionKey t.iv t.ciphertext with
  | .error fault => .error (.ciphertext fault)
  | .ok clear =>
    match c.serializer.deserialize σ clear with
    | .error e => .error (.value e)
    | .ok v => .ok v

/-- The checks, and the value behind them. -/
def stages (c : Codec) (now : Int64) (σ : Shape) (text : String) :
    Except Stop (Token × σ.Val) := do
  let t ← c.checked now text
  let v ← c.reveal σ t
  return (t, v)

/-- The stages behind the tag. -/
theorem accept_eq_stages : c.accept now σ t = .ofStages (do
    let t ← checkLifetime c.timeout now t
    let t ← checkTenant c.provider.tenantId t
    let t ← checkIv t
    let v ← c.reveal σ t
    return (t, v)) := by
  unfold accept checkLifetime checkTenant checkIv reveal
  split
  · rfl
  simp only [ok_bind]
  split
  · rfl
  simp only [ok_bind]
  split
  · rfl
  simp only [ok_bind]
  cases c.cipher.decrypt c.provider.encryptionKey t.iv t.ciphertext with
  | error fault => rfl
  | ok clear =>
    simp only
    cases c.serializer.deserialize σ clear <;> rfl

/-- Decoding runs the stages one after the other. -/
theorem decode_eq_stages : c.decode now σ text = .ofStages (c.stages now σ text) := by
  unfold decode stages checked authenticate
  cases Token.parse text with
  | error cause => rfl
  | ok t =>
    simp only
    cases c.mac.verify c.provider.authenticationKey (Utf8.encode t.signed) t.tag with
    | error fault => rfl
    | ok authentic =>
      cases authentic with
      | false => rfl
      | true =>
        simp only [ok_bind, bind_assoc]
        exact accept_eq_stages

/-! ## What each stage lets pass -/

/-- The tag of a token is the one that the key gives for it. -/
def Authentic (c : Codec) (t : Token) : Prop :=
  c.mac.compute c.provider.authenticationKey (Utf8.encode t.signed) = .ok t.tag

/-- The token of a text stands up to all checks. -/
structure Passes (c : Codec) (now : Int64) (text : String) (t : Token) : Prop where
  form : Token.parse text = .ok t
  tag : c.mac.compute c.provider.authenticationKey (Utf8.encode t.signed) = .ok t.tag
  live : isExpired t.issuedAt c.timeout now = false
  tenantId : t.tenantId = c.provider.tenantId
  iv : t.iv.length = ivLength

/-- The token of a text stands up to the checks of tag, lifetime and tenant,
and its vector has the wrong length. -/
structure MissesVector (c : Codec) (now : Int64) (text : String) (t : Token) : Prop where
  form : Token.parse text = .ok t
  tag : c.Authentic t
  live : isExpired t.issuedAt c.timeout now = false
  tenantId : t.tenantId = c.provider.tenantId
  iv : t.iv.length ≠ ivLength

/-- Form and tag are right for the tokens that bear the tag that the key
gives for them. -/
theorem authenticate_eq_ok_iff {mac : Mac} {key : Bytes} :
    authenticate mac key text = .ok t ↔
      Token.parse text = .ok t ∧ mac.compute key (Utf8.encode t.signed) = .ok t.tag := by
  rw [← Mac.verify_eq_true_iff]
  unfold authenticate
  split
  · rename_i cause hparse
    simp [hparse]
  · rename_i found hparse
    rw [hparse]
    constructor
    · intro h
      split at h
      · cases h
      · cases h
      · rename_i hverify
        cases h
        exact ⟨rfl, hverify⟩
    · rintro ⟨hfound, hverify⟩
      cases hfound
      rw [hverify]

theorem checkLifetime_eq_ok_iff {timeout : UInt64} {t' : Token} :
    checkLifetime timeout now t = .ok t' ↔ isExpired t.issuedAt timeout now = false ∧ t = t' := by
  unfold checkLifetime
  cases isExpired t.issuedAt timeout now <;> simp

theorem checkTenant_eq_ok_iff {tenantId : Bytes} {t' : Token} :
    checkTenant tenantId t = .ok t' ↔ t.tenantId = tenantId ∧ t = t' := by
  unfold checkTenant
  by_cases h : t.tenantId = tenantId <;> simp [h]

theorem checkIv_eq_ok_iff {t' : Token} :
    checkIv t = .ok t' ↔ t.iv.length = ivLength ∧ t = t' := by
  unfold checkIv
  by_cases h : t.iv.length = ivLength <;> simp [h]

/-- The checks let a token pass that stands up to each of them. -/
theorem checked_eq_ok_iff : c.checked now text = .ok t ↔ c.Passes now text t := by
  unfold checked
  simp only [bind_eq_ok_iff, authenticate_eq_ok_iff, checkLifetime_eq_ok_iff,
    checkTenant_eq_ok_iff, checkIv_eq_ok_iff]
  constructor
  · rintro ⟨t₁, ⟨hform, htag⟩, t₂, ⟨hlive, rfl⟩, t₃, ⟨htenantId, rfl⟩, hiv, rfl⟩
    exact ⟨hform, htag, hlive, htenantId, hiv⟩
  · rintro ⟨hform, htag, hlive, htenantId, hiv⟩
    exact ⟨t, ⟨hform, htag⟩, t, ⟨hlive, rfl⟩, t, ⟨htenantId, rfl⟩, hiv, rfl⟩

theorem reveal_eq_ok_iff {v : σ.Val} :
    c.reveal σ t = .ok v ↔ ∃ clear,
      c.cipher.decrypt c.provider.encryptionKey t.iv t.ciphertext = .ok clear ∧
      c.serializer.deserialize σ clear = .ok v := by
  unfold reveal
  cases c.cipher.decrypt c.provider.encryptionKey t.iv t.ciphertext with
  | error fault => simp
  | ok clear => cases hread : c.serializer.deserialize σ clear <;> simp [hread]

theorem stages_eq_ok_iff {v : σ.Val} :
    c.stages now σ text = .ok (t, v) ↔ c.Passes now text t ∧ c.reveal σ t = .ok v := by
  unfold stages
  simp only [bind_eq_ok_iff, checked_eq_ok_iff]
  constructor
  · rintro ⟨_, hpasses, _, hreveal, h⟩
    cases h
    exact ⟨hpasses, hreveal⟩
  · rintro ⟨hpasses, hreveal⟩
    exact ⟨t, hpasses, v, hreveal, rfl⟩

/-! ## Where each stage stops -/

/-- Form and tag fail for a text that is no token, for a key that is too
short, and for a tag that is not the right one. -/
theorem authenticate_eq_error_iff {mac : Mac} {key : Bytes} :
    authenticate mac key text = .error s ↔
      (∃ cause, Token.parse text = .error cause ∧ s = .form cause) ∨
      ∃ t, Token.parse text = .ok t ∧
        ((∃ fault, mac.compute key (Utf8.encode t.signed) = .error fault ∧ s = .key fault) ∨
          ∃ right, mac.compute key (Utf8.encode t.signed) = .ok right ∧ right ≠ t.tag ∧
            s = .tag) := by
  unfold authenticate
  cases Token.parse text with
  | error cause => simp [eq_comm]
  | ok t =>
    cases hright : mac.compute key (Utf8.encode t.signed) with
    | error fault => simp [Mac.verify_of_compute_error hright, hright, eq_comm]
    | ok right =>
      by_cases htag : right = t.tag
      · simp [Mac.verify_of_compute hright, hright, htag]
      · simp [Mac.verify_of_compute hright, hright, htag, beq_eq_false_iff_ne.2 htag, eq_comm]

theorem checkLifetime_eq_error_iff {timeout : UInt64} :
    checkLifetime timeout now t = .error s ↔ isExpired t.issuedAt timeout now = true ∧
      s = .lifetime t.issuedAt timeout now := by
  unfold checkLifetime
  cases isExpired t.issuedAt timeout now <;> simp [eq_comm]

theorem checkTenant_eq_error_iff {tenantId : Bytes} :
    checkTenant tenantId t = .error s ↔ t.tenantId ≠ tenantId ∧
      s = .tenant t.tenantId tenantId := by
  unfold checkTenant
  by_cases h : t.tenantId = tenantId <;> simp [h, eq_comm]

theorem checkIv_eq_error_iff :
    checkIv t = .error s ↔ t.iv.length ≠ ivLength ∧ s = .vector t.iv.length := by
  unfold checkIv
  by_cases h : t.iv.length = ivLength <;> simp [h, eq_comm]

theorem reveal_eq_error_iff :
    c.reveal σ t = .error s ↔
      (∃ fault, c.cipher.decrypt c.provider.encryptionKey t.iv t.ciphertext = .error fault ∧
        s = .ciphertext fault) ∨
      ∃ clear, c.cipher.decrypt c.provider.encryptionKey t.iv t.ciphertext = .ok clear ∧
        ∃ e, c.serializer.deserialize σ clear = .error e ∧ s = .value e := by
  unfold reveal
  cases c.cipher.decrypt c.provider.encryptionKey t.iv t.ciphertext with
  | error fault => simp [eq_comm]
  | ok clear => cases hread : c.serializer.deserialize σ clear <;> simp [hread, eq_comm]

/-! ## Where a call stops -/

/-- The stops that a call for a text may come to, with all that the text has
stood up to by then. -/
inductive StopsAt (c : Codec) (now : Int64) (σ : Shape) (text : String) : Stop → Prop
  | form {cause : Token.Malformation} (h : Token.parse text = .error cause) :
      StopsAt c now σ text (.form cause)
  | key {t : Token} {fault : CryptoError} (form : Token.parse text = .ok t)
      (h : c.mac.compute c.provider.authenticationKey (Utf8.encode t.signed) = .error fault) :
      StopsAt c now σ text (.key fault)
  | tag {t : Token} {right : Bytes} (form : Token.parse text = .ok t)
      (h : c.mac.compute c.provider.authenticationKey (Utf8.encode t.signed) = .ok right)
      (ne : right ≠ t.tag) :
      StopsAt c now σ text .tag
  | lifetime {t : Token} (form : Token.parse text = .ok t) (tag : c.Authentic t)
      (h : isExpired t.issuedAt c.timeout now = true) :
      StopsAt c now σ text (.lifetime t.issuedAt c.timeout now)
  | tenant {t : Token} (form : Token.parse text = .ok t) (tag : c.Authentic t)
      (live : isExpired t.issuedAt c.timeout now = false) (h : t.tenantId ≠ c.provider.tenantId) :
      StopsAt c now σ text (.tenant t.tenantId c.provider.tenantId)
  | vector {t : Token} (h : c.MissesVector now text t) :
      StopsAt c now σ text (.vector t.iv.length)
  | ciphertext {t : Token} {fault : CryptoError} (passes : c.Passes now text t)
      (h : c.cipher.decrypt c.provider.encryptionKey t.iv t.ciphertext = .error fault) :
      StopsAt c now σ text (.ciphertext fault)
  | value {t : Token} {clear : Bytes} {e : StateError} (passes : c.Passes now text t)
      (opens : c.cipher.decrypt c.provider.encryptionKey t.iv t.ciphertext = .ok clear)
      (h : c.serializer.deserialize σ clear = .error e) :
      StopsAt c now σ text (.value e)

theorem stopsAt_of_checked (h : c.checked now text = .error s) : c.StopsAt now σ text s := by
  rcases bind_eq_error_iff.1 h with hauth | ⟨t, hauth, h⟩
  · rcases authenticate_eq_error_iff.1 hauth with ⟨cause, hform, rfl⟩ | ⟨t, hform, htag⟩
    · exact .form hform
    · rcases htag with ⟨fault, hkey, rfl⟩ | ⟨right, hright, hne, rfl⟩
      · exact .key hform hkey
      · exact .tag hform hright hne
  obtain ⟨hform, htag⟩ := authenticate_eq_ok_iff.1 hauth
  rcases bind_eq_error_iff.1 h with hlifetime | ⟨t, hlifetime, h⟩
  · obtain ⟨hexpired, rfl⟩ := checkLifetime_eq_error_iff.1 hlifetime
    exact .lifetime hform htag hexpired
  obtain ⟨hlive, rfl⟩ := checkLifetime_eq_ok_iff.1 hlifetime
  rcases bind_eq_error_iff.1 h with htenant | ⟨t, htenant, hvector⟩
  · obtain ⟨hne, rfl⟩ := checkTenant_eq_error_iff.1 htenant
    exact .tenant hform htag hlive hne
  obtain ⟨htenantId, rfl⟩ := checkTenant_eq_ok_iff.1 htenant
  obtain ⟨hiv, rfl⟩ := checkIv_eq_error_iff.1 hvector
  exact .vector ⟨hform, htag, hlive, htenantId, hiv⟩

theorem stopsAt_of_stages (h : c.stages now σ text = .error s) : c.StopsAt now σ text s := by
  rcases bind_eq_error_iff.1 h with hchecked | ⟨t, hchecked, h⟩
  · exact stopsAt_of_checked hchecked
  have hpasses := checked_eq_ok_iff.1 hchecked
  rcases bind_eq_error_iff.1 h with hreveal | ⟨v, -, h⟩
  · rcases reveal_eq_error_iff.1 hreveal with ⟨fault, hfault, rfl⟩ | ⟨clear, hopens, e, he, rfl⟩
    · exact .ciphertext hpasses hfault
    · exact .value hpasses hopens he
  · cases h

/-- The stages before a stop let the text pass, and the next one does not. -/
theorem stages_of_stopsAt (h : c.StopsAt now σ text s) : c.stages now σ text = .error s := by
  unfold stages
  cases h with
  | form h =>
    rw [checked, authenticate_eq_error_iff.2 (.inl ⟨_, h, rfl⟩)]
    rfl
  | key form h =>
    rw [checked, authenticate_eq_error_iff.2 (.inr ⟨_, form, .inl ⟨_, h, rfl⟩⟩)]
    rfl
  | tag form h ne =>
    rw [checked, authenticate_eq_error_iff.2 (.inr ⟨_, form, .inr ⟨_, h, ne, rfl⟩⟩)]
    rfl
  | lifetime form tag h =>
    rw [checked, authenticate_eq_ok_iff.2 ⟨form, tag⟩, ok_bind,
      checkLifetime_eq_error_iff.2 ⟨h, rfl⟩]
    rfl
  | tenant form tag live h =>
    rw [checked, authenticate_eq_ok_iff.2 ⟨form, tag⟩, ok_bind,
      checkLifetime_eq_ok_iff.2 ⟨live, rfl⟩, ok_bind, checkTenant_eq_error_iff.2 ⟨h, rfl⟩]
    rfl
  | vector h =>
    rw [checked, authenticate_eq_ok_iff.2 ⟨h.form, h.tag⟩, ok_bind,
      checkLifetime_eq_ok_iff.2 ⟨h.live, rfl⟩, ok_bind,
      checkTenant_eq_ok_iff.2 ⟨h.tenantId, rfl⟩, ok_bind, checkIv_eq_error_iff.2 ⟨h.iv, rfl⟩]
    rfl
  | ciphertext passes h =>
    rw [checked_eq_ok_iff.2 passes, ok_bind, reveal_eq_error_iff.2 (.inl ⟨_, h, rfl⟩)]
    rfl
  | value passes opens h =>
    rw [checked_eq_ok_iff.2 passes, ok_bind,
      reveal_eq_error_iff.2 (.inr ⟨_, opens, _, h, rfl⟩)]
    rfl

/-- A call ends at the stop that is listed for it, and at no other. -/
theorem stages_eq_error_iff : c.stages now σ text = .error s ↔ c.StopsAt now σ text s :=
  ⟨stopsAt_of_stages, stages_of_stopsAt⟩

/-- A key that is long enough finds every tag wrong but its own. -/
theorem StopsAt.of_not_authentic (form : Token.parse text = .ok t)
    (hkey : Mac.minKeyLength ≤ c.provider.authenticationKey.length) (htag : ¬ c.Authentic t) :
    c.StopsAt now σ text .tag := by
  refine .tag form (Mac.compute_eq_ok_iff.2 ⟨hkey, rfl⟩) fun heq => htag ?_
  exact Mac.compute_eq_ok_iff.2 ⟨hkey, heq.symm⟩

/-! ## Decoding -/

theorem decode_of_stopsAt (h : c.StopsAt now σ text s) : c.decode now σ text = s.logged := by
  rw [decode_eq_stages, stages_of_stopsAt h]
  rfl

theorem decode_of_checked_error (h : c.checked now text = .error s) :
    c.decode now σ text = s.logged :=
  decode_of_stopsAt (stopsAt_of_checked h)

theorem decode_of_authenticate_error
    (h : authenticate c.mac c.provider.authenticationKey text = .error s) :
    c.decode now σ text = s.logged := by
  refine decode_of_checked_error ?_
  rw [checked, h]
  rfl

/-- A call fails with the error of the stop that it comes to. -/
theorem decode_eq_error_iff {e : StateError} :
    (c.decode now σ text).result = .error e ↔ ∃ s, c.StopsAt now σ text s ∧ s.error = e := by
  simp only [← stages_eq_error_iff]
  rw [decode_eq_stages]
  cases c.stages now σ text with
  | error s => simp [Logged.ofStages, Stop.logged]
  | ok p => simp [Logged.ofStages]

/-- What passes all checks is left to cipher and serializer. -/
theorem decode_of_passes {clear : Bytes} (h : c.Passes now text t)
    (hclear : c.cipher.decrypt c.provider.encryptionKey t.iv t.ciphertext = .ok clear) :
    (c.decode now σ text).result = c.serializer.deserialize σ clear := by
  cases hread : c.serializer.deserialize σ clear with
  | error e =>
    rw [decode_of_stopsAt (.value h hclear hread)]
    rfl
  | ok v =>
    rw [decode_eq_stages, stages_eq_ok_iff.2 ⟨h, reveal_eq_ok_iff.2 ⟨clear, hclear, hread⟩⟩]
    rfl

/-- A value is given out only behind all stages. -/
theorem decode_eq_ok_iff {v : σ.Val} :
    (c.decode now σ text).result = .ok v ↔ ∃ t clear, c.Passes now text t ∧
      c.cipher.decrypt c.provider.encryptionKey t.iv t.ciphertext = .ok clear ∧
      c.serializer.deserialize σ clear = .ok v := by
  constructor
  · intro h
    rw [decode_eq_stages] at h
    cases hstages : c.stages now σ text with
    | error s =>
      rw [hstages] at h
      cases h
    | ok p =>
      rw [hstages] at h
      cases h
      obtain ⟨hpasses, hreveal⟩ := stages_eq_ok_iff.1 hstages
      obtain ⟨clear, hclear, hread⟩ := reveal_eq_ok_iff.1 hreveal
      exact ⟨_, clear, hpasses, hclear, hread⟩
  · rintro ⟨t, clear, hpasses, hclear, hread⟩
    rw [decode_of_passes hpasses hclear, hread]

/-! ## Tokens of another codec -/

/-- The codecs put the same tag on every text. -/
structure SignsAlike (a b : Codec) : Prop where
  mac : a.mac = b.mac
  authenticationKey : a.provider.authenticationKey = b.provider.authenticationKey

theorem SignsAlike.refl (c : Codec) : SignsAlike c c := ⟨rfl, rfl⟩

theorem SignsAlike.authentic_iff {a b : Codec} (h : SignsAlike a b) :
    a.Authentic t ↔ b.Authentic t := by
  rw [Authentic, Authentic, h.mac, h.authenticationKey]

/-- A minted token passes the tag of every codec that signs alike. -/
theorem SignsAlike.authentic_parsed {a b : Codec} (h : SignsAlike a b) (m : a.Minting) :
    b.Authentic m.parsed :=
  h.authentic_iff.1 m.authenticates

/-- An encoded token is expired for every codec that signs alike, once its
lifetime is over. -/
theorem decode_encoded_of_expired {a b : Codec} (h : SignsAlike a b) {issuedAt : Int64}
    {random : RandomSource} {v : σ.Val} {τ : Shape} {token : String}
    (hencode : (a.encode issuedAt random v).1.result = .ok token)
    (hexpired : isExpired issuedAt b.timeout now = true) :
    (b.decode now τ token).result = .error (.expired issuedAt b.timeout) := by
  obtain ⟨m, rfl, rfl, -⟩ := exists_minting_of_encode hencode
  exact decode_eq_error_iff.2 ⟨_, .lifetime m.parse_token (h.authentic_parsed m) hexpired, rfl⟩

end Codec

end SealedState
