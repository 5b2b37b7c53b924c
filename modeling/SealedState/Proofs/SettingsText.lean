/-
SealedState.Proofs.SettingsText — which texts are settings, and what
settings they are.

`Admitted` says of the members of an object that settings may have them, and
`Describes` which settings they describe. Both are about the members as such:
they do not mention the text, and the order does not matter to them
(`Admitted.perm`, `Describes.perm`). The settings that are read from an
object are the ones that its members describe (`ofJson_object_iff`).

The record that reads settings takes lists as well, by the places of their
items (`ofJson_list_iff`).

The reader is `from_json` of SPEC_FULL.md §6.
-/
import SealedState.Settings
import SealedState.Proofs.RecordMembers

namespace SealedState.Settings

open Json.Grammar (CodeUnit Literal IsObject IsList IsJson)
open Json.Reader

/-! ## The fields and their values -/

/-- The lifetime that a value gives: an integer that fits into 64 bits. -/
def lifetime? (l : Literal) : Option UInt64 :=
  l.natural?.bind fun n => if n ≤ 0xffffffffffffffff then some (UInt64.ofNat n) else none

/-- Puts the value of a member into settings that are read in part. -/
def set (name : String) (p : Partial) : Literal → Option Partial :=
  if name = "tenant_id" then fun l => l.text?.map fun s => { p with tenantId := some s }
  else if name = "secret" then fun l => l.text?.map fun s => { p with secret := some s }
  else if name = "timeout_secs" then fun l => (lifetime? l).map fun n => { p with timeout := some n }
  else if name = "encryption_algorithm" then
    fun l => l.text?.map fun s => { p with encryptionAlgorithm := some s }
  else if name = "authentication_algorithm" then
    fun l => l.text?.map fun s => { p with authenticationAlgorithm := some s }
  else fun _ => none

/-- The value that a field was read from. -/
def Partial.literal? (p : Partial) (name : String) : Option Literal :=
  if name = "tenant_id" then p.tenantId.map .text
  else if name = "secret" then p.secret.map .text
  else if name = "timeout_secs" then p.timeout.map fun n => .natural n.toNat
  else if name = "encryption_algorithm" then p.encryptionAlgorithm.map .text
  else if name = "authentication_algorithm" then p.authenticationAlgorithm.map .text
  else none

/-- The value is of the kind that the field has. -/
def Fits (name : String) (l : Literal) : Prop :=
  if name = "timeout_secs" then ∃ n ≤ 0xffffffffffffffff, l = .natural n else ∃ s, l = .text s

theorem toNat_ofNat_lifetime {n : Nat} (h : n ≤ 0xffffffffffffffff) :
    (UInt64.ofNat n).toNat = n := by
  rw [UInt64.toNat_ofNat', Nat.mod_eq_of_lt (by omega)]

theorem lifetime?_eq_some_iff {l : Literal} {n : UInt64} :
    lifetime? l = some n ↔ l = .natural n.toNat := by
  rw [lifetime?, Option.bind_eq_some_iff]
  constructor
  · rintro ⟨m, hm, h⟩
    split at h
    · rename_i hlt
      cases h
      rw [Literal.natural?_eq_some_iff.1 hm, toNat_ofNat_lifetime hlt]
    · cases h
  · rintro rfl
    refine ⟨n.toNat, rfl, ?_⟩
    rw [if_pos (Nat.le_of_lt_succ n.toNat_lt), UInt64.ofNat_toNat]

theorem ofInt?_lifetime (n : Nat) :
    (IntegerKind.u64.bounds.ofInt? n).map (fun v => UInt64.ofNat v.val.toNat)
      = if n ≤ 0xffffffffffffffff then some (UInt64.ofNat n) else none := by
  have hbounds : (IntegerKind.u64.bounds.least ≤ (n : Int) ∧
      (n : Int) ≤ IntegerKind.u64.bounds.greatest) ↔ n ≤ 0xffffffffffffffff := by
    simp only [IntegerKind.bounds]
    omega
  by_cases hn : n ≤ 0xffffffffffffffff
  · have hread : IntegerKind.u64.bounds.ofInt? n = some ⟨n, hbounds.2 hn⟩ :=
      dif_pos (hbounds.2 hn)
    rw [hread, if_pos hn]
    rfl
  · have hread : IntegerKind.u64.bounds.ofInt? n = none := dif_neg fun h => hn (hbounds.1 h)
    rw [hread, if_neg hn]
    rfl

theorem follows_lifetime : Follows lifetime lifetime? := by
  have h := (follows_integer (k := .u64) rfl).map fun n => UInt64.ofNat n.val.toNat
  have htake : (fun l : Literal => (l.natural?.bind fun n => IntegerKind.u64.bounds.ofInt? n).map
      fun n => UInt64.ofNat n.val.toNat) = lifetime? := by
    funext l
    rw [lifetime?, Option.map_bind]
    exact congrArg l.natural?.bind (funext ofInt?_lifetime)
  rwa [htake] at h

theorem record_follows : record.Follows set := by
  intro field hfield p
  simp only [record, List.mem_cons, List.not_mem_nil, or_false] at hfield
  rcases hfield with rfl | rfl | rfl | rfl | rfl
  · simpa [set] using follows_string.map fun s => { p with tenantId := some s }
  · simpa [set] using follows_string.map fun s => { p with secret := some s }
  · simpa [set] using follows_lifetime.map fun n => { p with timeout := some n }
  · simpa [set] using follows_string.map fun s => { p with encryptionAlgorithm := some s }
  · simpa [set] using follows_string.map fun s => { p with authenticationAlgorithm := some s }

theorem record_holds : record.Holds set Partial.literal? Fits where
  isPresent := by
    intro field hfield p
    simp only [record, List.mem_cons, List.not_mem_nil, or_false] at hfield
    rcases hfield with rfl | rfl | rfl | rfl | rfl
    all_goals simp [Partial.literal?]
  set_of_fits := by
    intro field hfield p l hfits
    simp only [record, List.mem_cons, List.not_mem_nil, or_false] at hfield
    rcases hfield with rfl | rfl | rfl | rfl | rfl
    · obtain ⟨s, rfl⟩ : ∃ s, l = .text s := hfits
      exact ⟨{ p with tenantId := some s }, rfl, by grind [Partial.literal?]⟩
    · obtain ⟨s, rfl⟩ : ∃ s, l = .text s := hfits
      exact ⟨{ p with secret := some s }, rfl, by grind [Partial.literal?]⟩
    · obtain ⟨n, hn, rfl⟩ : ∃ n ≤ 0xffffffffffffffff, l = .natural n := hfits
      have hlifetime : lifetime? (.natural n) = some (UInt64.ofNat n) :=
        lifetime?_eq_some_iff.2 (by rw [toNat_ofNat_lifetime hn])
      refine ⟨{ p with timeout := some (UInt64.ofNat n) }, ?_, ?_⟩
      · simp [set, hlifetime]
      · rw [lifetime?_eq_some_iff.1 hlifetime]
        grind [Partial.literal?]
    · obtain ⟨s, rfl⟩ : ∃ s, l = .text s := hfits
      exact ⟨{ p with encryptionAlgorithm := some s }, rfl, by grind [Partial.literal?]⟩
    · obtain ⟨s, rfl⟩ : ∃ s, l = .text s := hfits
      exact ⟨{ p with authenticationAlgorithm := some s }, rfl, by grind [Partial.literal?]⟩
  fits_of_set := by
    intro field hfield p p' l hset
    simp only [record, List.mem_cons, List.not_mem_nil, or_false] at hfield
    rcases hfield with rfl | rfl | rfl | rfl | rfl
    case inr.inr.inl =>
      obtain ⟨n, hn, -⟩ := Option.map_eq_some_iff.1 hset
      exact ⟨n.toNat, Nat.le_of_lt_succ n.toNat_lt, lifetime?_eq_some_iff.1 hn⟩
    all_goals
      obtain ⟨s, hs, -⟩ := Option.map_eq_some_iff.1 hset
      exact ⟨s, Literal.text?_eq_some_iff.1 hs⟩

/-! ## Members and what they describe -/

/-- The names that members may have, in the order of the fields. -/
def memberNames : List String :=
  ["tenant_id", "secret", "timeout_secs", "encryption_algorithm", "authentication_algorithm"]

/-- Members that settings may have: no name twice, no other names, a tenant
and a secret among them, and values of the right kinds. -/
structure Admitted (ms : List (String × Literal)) : Prop where
  distinct : (ms.map Prod.fst).Nodup
  known : ∀ m ∈ ms, m.1 ∈ memberNames
  tenant : "tenant_id" ∈ ms.map Prod.fst
  secret : "secret" ∈ ms.map Prod.fst
  lifetime : ∀ l, ("timeout_secs", l) ∈ ms → ∃ n ≤ 0xffffffffffffffff, l = .natural n
  text : ∀ m ∈ ms, m.1 ≠ "timeout_secs" → ∃ s, m.2 = .text s

/-- The value of the member with that name, or the default without such a
member. -/
def Gives (ms : List (String × Literal)) (name : String) (default l : Literal) : Prop :=
  (name, l) ∈ ms ∨ name ∉ ms.map Prod.fst ∧ l = default

/-- The settings are those that the members describe. -/
structure Describes (ms : List (String × Literal)) (s : Settings) : Prop where
  tenantId : ("tenant_id", .text s.tenantId) ∈ ms
  secret : ("secret", .text s.secret) ∈ ms
  timeout : Gives ms "timeout_secs" (.natural 900) (.natural s.timeout.toNat)
  encryptionAlgorithm :
    Gives ms "encryption_algorithm" (.text "AES-256-GCM") (.text s.encryptionAlgorithm)
  authenticationAlgorithm :
    Gives ms "authentication_algorithm" (.text "HMAC-SHA256") (.text s.authenticationAlgorithm)

variable {ms ms' : List (String × Literal)} {ls : List Literal} {s : Settings} {p : Partial}
  {text : String}

theorem Admitted.perm (h : Admitted ms) (hperm : ms.Perm ms') : Admitted ms' where
  distinct := (hperm.map Prod.fst).nodup_iff.1 h.distinct
  known m hm := h.known m (hperm.mem_iff.2 hm)
  tenant := (hperm.map Prod.fst).mem_iff.1 h.tenant
  secret := (hperm.map Prod.fst).mem_iff.1 h.secret
  lifetime l hl := h.lifetime l (hperm.mem_iff.2 hl)
  text m hm := h.text m (hperm.mem_iff.2 hm)

theorem Gives.perm {name : String} {default l : Literal} (h : Gives ms name default l)
    (hperm : ms.Perm ms') : Gives ms' name default l := by
  rwa [Gives, ← hperm.mem_iff, ← (hperm.map Prod.fst).mem_iff]

theorem Describes.perm (h : Describes ms s) (hperm : ms.Perm ms') : Describes ms' s where
  tenantId := hperm.mem_iff.1 h.tenantId
  secret := hperm.mem_iff.1 h.secret
  timeout := h.timeout.perm hperm
  encryptionAlgorithm := h.encryptionAlgorithm.perm hperm
  authenticationAlgorithm := h.authenticationAlgorithm.perm hperm

theorem Admitted.fits (h : Admitted ms) : ∀ m ∈ ms, Fits m.1 m.2 := by
  rintro ⟨name, l⟩ hm
  rw [Fits]
  split
  · rename_i hname
    cases hname
    exact h.lifetime l hm
  · rename_i hname
    exact h.text (name, l) hm hname

/-! ## What a partial record completes to -/

/-- Completion in terms of the values that fields were read from. -/
theorem complete_eq_ok_iff : p.complete = .ok s ↔
    p.literal? "tenant_id" = some (.text s.tenantId) ∧
    p.literal? "secret" = some (.text s.secret) ∧
    (p.literal? "timeout_secs").getD (.natural 900) = .natural s.timeout.toNat ∧
    (p.literal? "encryption_algorithm").getD (.text "AES-256-GCM")
      = .text s.encryptionAlgorithm ∧
    (p.literal? "authentication_algorithm").getD (.text "HMAC-SHA256")
      = .text s.authenticationAlgorithm := by
  obtain ⟨tenantId, secret, timeout, encryption, authentication⟩ := p
  obtain ⟨t, x, n, e, a⟩ := s
  have htimeout : (timeout.map fun n => Literal.natural n.toNat).getD (.natural 900)
      = .natural (timeout.getD Codec.defaultTimeout).toNat :=
    Option.getD_map (fun n => Literal.natural n.toNat) Codec.defaultTimeout timeout
  have hencryption : (encryption.map Literal.text).getD (.text "AES-256-GCM")
      = .text (encryption.getD Cipher.standard.id) :=
    Option.getD_map Literal.text Cipher.standard.id encryption
  have hauthentication : (authentication.map Literal.text).getD (.text "HMAC-SHA256")
      = .text (authentication.getD Mac.standard.id) :=
    Option.getD_map Literal.text Mac.standard.id authentication
  cases tenantId <;> cases secret <;>
    simp [Partial.complete, Partial.literal?, htimeout, hencryption, hauthentication,
      UInt64.toNat_inj]

section Holding

variable (h : ∀ name l, p.literal? name = some l ↔ (name, l) ∈ ms)
include h

theorem getD_literal?_eq_iff {name : String} {default l : Literal} :
    (p.literal? name).getD default = l ↔ Gives ms name default l := by
  rw [Gives, ← h]
  cases hname : p.literal? name with
  | none =>
    have hmissing : name ∉ ms.map Prod.fst := by
      rw [List.mem_map]
      rintro ⟨m, hm, rfl⟩
      cases hname.symm.trans ((h m.1 m.2).2 hm)
    simp [hmissing, eq_comm]
  | some l' =>
    have hpresent : name ∈ ms.map Prod.fst := List.mem_map.2 ⟨_, (h name l').1 hname, rfl⟩
    simp [hpresent]

theorem complete_eq_ok_iff_describes : p.complete = .ok s ↔ Describes ms s := by
  rw [complete_eq_ok_iff, h, h, getD_literal?_eq_iff h, getD_literal?_eq_iff h,
    getD_literal?_eq_iff h]
  exact ⟨fun ⟨h₁, h₂, h₃, h₄, h₅⟩ => ⟨h₁, h₂, h₃, h₄, h₅⟩,
    fun ⟨h₁, h₂, h₃, h₄, h₅⟩ => ⟨h₁, h₂, h₃, h₄, h₅⟩⟩

end Holding

/-! ## Every admitted object describes settings -/

theorem Admitted.exists_member {name : String} (h : Admitted ms) (hname : name ≠ "timeout_secs")
    (hmem : name ∈ ms.map Prod.fst) : ∃ x, (name, .text x) ∈ ms := by
  obtain ⟨⟨name, l⟩, hm, rfl⟩ := List.mem_map.1 hmem
  obtain ⟨x, rfl⟩ : ∃ x, l = .text x := h.text (name, l) hm hname
  exact ⟨x, hm⟩

theorem Admitted.exists_text (h : Admitted ms) (name default : String)
    (hname : name ≠ "timeout_secs") : ∃ x, Gives ms name (.text default) (.text x) := by
  by_cases hmem : name ∈ ms.map Prod.fst
  · obtain ⟨x, hx⟩ := h.exists_member hname hmem
    exact ⟨x, .inl hx⟩
  · exact ⟨default, .inr ⟨hmem, rfl⟩⟩

theorem Admitted.exists_lifetime (h : Admitted ms) :
    ∃ n : UInt64, Gives ms "timeout_secs" (.natural 900) (.natural n.toNat) := by
  by_cases hmem : "timeout_secs" ∈ ms.map Prod.fst
  · obtain ⟨⟨_, l⟩, hm, rfl⟩ := List.mem_map.1 hmem
    obtain ⟨n, hn, rfl⟩ := h.lifetime l hm
    exact ⟨UInt64.ofNat n, .inl ((toNat_ofNat_lifetime hn).symm ▸ hm)⟩
  · exact ⟨900, .inr ⟨hmem, rfl⟩⟩

theorem Admitted.exists_describes (h : Admitted ms) : ∃ s, Describes ms s := by
  obtain ⟨tenantId, htenant⟩ := h.exists_member (by decide) h.tenant
  obtain ⟨secret, hsecret⟩ := h.exists_member (by decide) h.secret
  obtain ⟨timeout, htimeout⟩ := h.exists_lifetime
  obtain ⟨encryption, hencryption⟩ :=
    h.exists_text "encryption_algorithm" "AES-256-GCM" (by decide)
  obtain ⟨authentication, hauthentication⟩ :=
    h.exists_text "authentication_algorithm" "HMAC-SHA256" (by decide)
  exact ⟨⟨tenantId, secret, timeout, encryption, authentication⟩,
    htenant, hsecret, htimeout, hencryption, hauthentication⟩

/-! ## Reading -/

theorem literal?_empty (name : String) : record.empty.literal? name = none := by
  simp [Partial.literal?, record]

/-- The fold over the members gives the settings that they describe. -/
theorem exists_fold_iff : (∃ p, ms.foldlM (record.assign set) record.empty = some p ∧
    p.complete = .ok s) ↔ Admitted ms ∧ Describes ms s := by
  constructor
  · rintro ⟨p, hfold, hcomplete⟩
    obtain ⟨hdistinct, hmembers, hall⟩ := record_holds.of_foldlM hfold
    have hholds : ∀ name l, p.literal? name = some l ↔ (name, l) ∈ ms := by
      intro name l
      simp [hall, literal?_empty]
    have hdescribes := (complete_eq_ok_iff_describes hholds).1 hcomplete
    refine ⟨⟨hdistinct, fun m hm => (hmembers m hm).1, List.mem_map_of_mem hdescribes.tenantId,
      List.mem_map_of_mem hdescribes.secret, fun l hl => ?_, fun m hm hname => ?_⟩, hdescribes⟩
    · exact (hmembers _ hl).2.2
    · have hfits := (hmembers m hm).2.2
      rwa [Fits, if_neg hname] at hfits
  · rintro ⟨hadmitted, hdescribes⟩
    have hmembers : ∀ m ∈ ms, m.1 ∈ record.names ∧ record.empty.literal? m.1 = none ∧
        Fits m.1 m.2 := fun m hm =>
      ⟨hadmitted.known m hm, literal?_empty m.1, hadmitted.fits m hm⟩
    obtain ⟨p, hfold⟩ := record_holds.exists_foldlM hadmitted.distinct hmembers
    obtain ⟨-, -, hall⟩ := record_holds.of_foldlM hfold
    refine ⟨p, hfold, (complete_eq_ok_iff_describes fun name l => ?_).2 hdescribes⟩
    simp [hall, literal?_empty]

theorem ofJson_eq_ok_iff_document : ofJson text = .ok s ↔
    Json.document (Json.Reader.record record) (Utf8.bytes text.toList) = .ok s := by
  change ofJson text = .ok s ↔
    Json.document (Json.Reader.record record) (Utf8.encode text) = .ok s
  cases hread : Json.document (Json.Reader.record record) (Utf8.encode text) <;>
    simp [ofJson, hread]

/-- An object is read as the settings that its members describe. -/
theorem ofJson_object_iff (h : IsObject text.toList ms) :
    ofJson text = .ok s ↔ Admitted ms ∧ Describes ms s := by
  rw [ofJson_eq_ok_iff_document, ← toOption_eq_some_iff, document_object record_follows rfl h,
    Option.bind_eq_some_iff, ← exists_fold_iff]
  simp only [toOption_eq_some_iff]
  rfl

/-- With a tenant and a secret, no item is missing from a list. -/
theorem Admitted.rest_isOptional (h : Admitted (memberNames.zip ls)) :
    (record.fields.drop ls.length).all (·.isOptional) = true := by
  match ls, h with
  | [], h => exact absurd h.tenant (by simp [memberNames])
  | [_], h => exact absurd h.secret (by simp [memberNames])
  | _ :: _ :: ls, _ =>
    have hlast : (record.fields.drop 2).all (·.isOptional) = true := rfl
    rw [List.all_eq_true] at hlast ⊢
    intro field hfield
    rw [List.length_cons, List.length_cons, Nat.add_assoc, Nat.add_comm, ← List.drop_drop] at hfield
    exact hlast field (List.mem_of_mem_drop hfield)

/-- A list is read as the object that has its items for members. -/
theorem ofJson_list_iff (h : IsList text.toList ls) :
    ofJson text = .ok s ↔ ls.length ≤ 5 ∧ Admitted (memberNames.zip ls) ∧
      Describes (memberNames.zip ls) s := by
  have hfields : ∀ field ∈ record.fields, record.field? field.name = some field := by
    intro field hfield
    simp only [record, List.mem_cons, List.not_mem_nil, or_false] at hfield
    rcases hfield with rfl | rfl | rfl | rfl | rfl <;> rfl
  have hitems : ∀ p, Record.assignInOrder set record.fields record.empty ls = some p ↔
      ls.length ≤ 5 ∧ (record.fields.drop ls.length).all (·.isOptional) = true ∧
        (memberNames.zip ls).foldlM (record.assign set) record.empty = some p := fun p =>
    record_holds.assignInOrder_eq_some_iff hfields (by decide) fun field _ =>
      literal?_empty field.name
  rw [ofJson_eq_ok_iff_document, ← toOption_eq_some_iff, document_list record_follows h,
    Option.bind_eq_some_iff, ← exists_fold_iff]
  simp only [hitems, toOption_eq_some_iff]
  constructor
  · rintro ⟨p, ⟨hlength, -, hfold⟩, hcomplete⟩
    exact ⟨hlength, p, hfold, hcomplete⟩
  · rintro ⟨hlength, p, hfold, hcomplete⟩
    have hadmitted := (exists_fold_iff.1 ⟨p, hfold, hcomplete⟩).1
    exact ⟨p, ⟨hlength, hadmitted.rest_isOptional, hfold⟩, hcomplete⟩

/-- The text is refused, with words that say why. -/
def Refused (text : String) : Prop := ∃ reason, ofJson text = .error (.configuration reason)

theorem refused_of_ne_ok (h : ∀ s, ofJson text ≠ .ok s) : Refused text := by
  cases hread : Json.document (Json.Reader.record record) (Utf8.encode text) with
  | ok s => exact absurd (ofJson_eq_ok_iff_document.2 hread) (h s)
  | error fault => exact ⟨fault.message (Utf8.encode text), by simp only [ofJson, hread]⟩

/-- A text that is read exactly if `A` holds, as the settings of some
members, is refused otherwise. -/
theorem reading_of_iff {A : Prop} (h : ∀ s, ofJson text = .ok s ↔ A ∧ Describes ms s)
    (hadmitted : A → Admitted ms) : ((∃ s, ofJson text = .ok s) ↔ A) ∧
      (∀ s, ofJson text = .ok s → Describes ms s) ∧ (¬ A → Refused text) := by
  refine ⟨⟨?_, fun hA => ?_⟩, fun s hread => ((h s).1 hread).2, fun hnot => ?_⟩
  · rintro ⟨s, hread⟩
    exact ((h s).1 hread).1
  · obtain ⟨s, hdescribes⟩ := (hadmitted hA).exists_describes
    exact ⟨s, (h s).2 ⟨hA, hdescribes⟩⟩
  · exact refused_of_ne_ok fun s hread => hnot ((h s).1 hread).1

/-- A text that is neither an object nor a list is refused. -/
theorem refused_of_other (hobject : ∀ ms, ¬ IsObject text.toList ms)
    (hlist : ∀ ls, ¬ IsList text.toList ls) : Refused text := by
  refine refused_of_ne_ok fun s hread => ?_
  obtain ⟨ms, h⟩ | ⟨ls, h⟩ :=
    exists_object_or_list record_follows rfl (ofJson_eq_ok_iff_document.1 hread)
  · exact hobject ms h
  · exact hlist ls h

/-- What is read from an object depends on its members, and not on their
order nor on how they are spelled: it is read if settings may have those
members, and gives the settings that they describe. A list is read as the
object of its items, under the names in the order of the fields. All else is
refused, whether it is JSON or not. -/
theorem read_by_members (text : String) :
    (∀ ms, IsObject text.toList ms →
      (((∃ s, ofJson text = .ok s) ↔ Admitted ms) ∧
        (∀ s, ofJson text = .ok s → Describes ms s) ∧ (¬ Admitted ms → Refused text)) ∧
      ∀ text' ms', IsObject text'.toList ms' → ms.Perm ms' →
        ∀ s, ofJson text = .ok s → ofJson text' = .ok s) ∧
    (∀ ls, IsList text.toList ls →
      ((∃ s, ofJson text = .ok s) ↔ ls.length ≤ 5 ∧ Admitted (memberNames.zip ls)) ∧
      (∀ s, ofJson text = .ok s → Describes (memberNames.zip ls) s) ∧
      (¬ (ls.length ≤ 5 ∧ Admitted (memberNames.zip ls)) → Refused text)) ∧
    ((∀ ms, ¬ IsObject text.toList ms) → (∀ ls, ¬ IsList text.toList ls) → Refused text) ∧
    (¬ IsJson text.toList → Refused text) := by
  refine ⟨fun ms h => ⟨reading_of_iff (fun s => ofJson_object_iff h) id, ?_⟩, fun ls h => ?_,
    refused_of_other, fun hnot =>
      refused_of_other (fun ms h => hnot h.isJson) fun ls h => hnot h.isJson⟩
  · intro text' ms' h' hperm s hread
    obtain ⟨hadmitted, hdescribes⟩ := (ofJson_object_iff h).1 hread
    exact (ofJson_object_iff h').2 ⟨hadmitted.perm hperm, hdescribes.perm hperm⟩
  · refine reading_of_iff (fun s => ?_) And.right
    rw [ofJson_list_iff h, and_assoc]

/-- Members that leave all but the tenant and the secret out. -/
def sampleMembers : List (String × Literal) := [("tenant_id", .text "01"), ("secret", .text "AAAA")]

theorem admitted_sampleMembers : Admitted sampleMembers where
  distinct := by decide
  known := by decide
  tenant := by decide
  secret := by decide
  lifetime := by simp [sampleMembers]
  text := by simp [sampleMembers]

theorem isObject_sample :
    IsObject "\x7b\"tenant_id\":\"01\",\"secret\":\"AAAA\"\x7d".toList sampleMembers :=
  ⟨_, [], .none _,
    .member (.first (.none _)) (.of_plain "tenant_id".toList _ rfl) (.none _) (.none _)
      (.text (.of_plain "01".toList _ rfl))
      (.member (.comma (.none _) (.none _)) (.of_plain "secret".toList _ rfl) (.none _)
        (.none _) (.text (.of_plain "AAAA".toList _ rfl)) (.close (.none _))),
    .none _⟩

/-- The same members in the other order, with white space and an escape. -/
theorem isObject_respelled :
    IsObject "\x7b\"secret\" : \"AAAA\",\n\"\\u0074enant_id\":\"01\"\x7d".toList
      sampleMembers.reverse :=
  have hletter : CodeUnit "0074enant_id\":\"01\"\x7d".toList 0x74 "enant_id\":\"01\"\x7d".toList :=
    .mk (a := 0) (b := 0) (c := 7) (d := 4) _ (.mk rfl) (.mk rfl) (.mk rfl) (.mk rfl)
  ⟨_, [], .none _,
    .member (.first (.none _)) (.of_plain "secret".toList _ rfl) (.space rfl (.none _))
      (.space rfl (.none _)) (.text (.of_plain "AAAA".toList _ rfl))
      (.member (.comma (.none _) (.space rfl (.none _)))
        (.unit hletter (by decide) (by decide) (.of_plain "enant_id".toList _ rfl))
        (.none _) (.none _) (.text (.of_plain "01".toList _ rfl)) (.close (.none _))),
    .none _⟩

theorem isList_sample : IsList "[\"01\",\"AAAA\"]".toList [.text "01", .text "AAAA"] :=
  ⟨_, [], .none _,
    .item (.first (.none _)) (.text (.of_plain "01".toList _ rfl))
      (.item (.comma (.none _) (.none _)) (.text (.of_plain "AAAA".toList _ rfl))
        (.close (.none _))),
    .none _⟩

theorem read_by_members_sample :
    ofJson "\x7b\"tenant_id\":\"01\",\"secret\":\"AAAA\"\x7d"
      = .ok ⟨"01", "AAAA", 900, "AES-256-GCM", "HMAC-SHA256"⟩ ∧
    ofJson "\x7b\"secret\" : \"AAAA\",\n\"\\u0074enant_id\":\"01\"\x7d"
      = .ok ⟨"01", "AAAA", 900, "AES-256-GCM", "HMAC-SHA256"⟩ ∧
    (∃ s, ofJson "[\"01\",\"AAAA\"]" = .ok s ∧ Describes sampleMembers s) ∧
    IsObject "\x7b\x7d".toList [] ∧ ¬ Admitted [] ∧ Refused "\x7b\x7d" ∧
    ¬ IsJson "".toList ∧ Refused "" := by
  have hread : ofJson "\x7b\"tenant_id\":\"01\",\"secret\":\"AAAA\"\x7d"
      = .ok ⟨"01", "AAAA", 900, "AES-256-GCM", "HMAC-SHA256"⟩ := by decide +kernel
  have hrespelled := ((read_by_members _).1 sampleMembers isObject_sample).2 _ _ isObject_respelled
    (List.reverse_perm sampleMembers).symm _ hread
  obtain ⟨hlist, hdescribes, -⟩ := (read_by_members _).2.1 _ isList_sample
  obtain ⟨s, hs⟩ := hlist.2 ⟨by decide, admitted_sampleMembers⟩
  have hempty : IsObject "\x7b\x7d".toList [] := ⟨_, [], .none _, .close (.none _), .none _⟩
  have hmissing : ¬ Admitted [] := fun h => absurd h.tenant List.not_mem_nil
  have hnothing : ¬ IsJson "".toList := by
    rintro ⟨start, l, rest, hgap, hvalue, -⟩
    obtain ⟨c, tail, rfl, -⟩ := hvalue.exists_cons
    cases hgap
  exact ⟨hread, hrespelled, ⟨s, hs, hdescribes s hs⟩, hempty, hmissing,
    ((read_by_members _).1 [] hempty).1.2.2 hmissing, hnothing,
    (read_by_members "").2.2.2 hnothing⟩

/-- A list with a tenant and a secret is JSON and no object, but it is
read. -/
theorem list_not_refused :
    IsJson "[\"01\",\"AAAA\"]".toList ∧ (∀ ms, ¬ IsObject "[\"01\",\"AAAA\"]".toList ms) ∧
    ofJson "[\"01\",\"AAAA\"]" = .ok ⟨"01", "AAAA", 900, "AES-256-GCM", "HMAC-SHA256"⟩ ∧
    ¬ Refused "[\"01\",\"AAAA\"]" := by
  have hread : ofJson "[\"01\",\"AAAA\"]"
      = .ok ⟨"01", "AAAA", 900, "AES-256-GCM", "HMAC-SHA256"⟩ := by decide +kernel
  refine ⟨isList_sample.isJson, fun ms => isList_sample.not_isObject, hread, ?_⟩
  rintro ⟨reason, hrefused⟩
  cases hread.symm.trans hrefused

end SealedState.Settings
