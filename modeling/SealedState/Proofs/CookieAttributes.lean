/-
SealedState.Proofs.CookieAttributes — what the Set-Cookie text of a cookie says
to the client that reads it.

A client cuts the text at its semicolons. The first segment holds the name and
the value, every other one an attribute (`readAttributes`). Nothing is escaped
when the text is written, so a semicolon in a name or a path ends a segment
there (`splitAll_persisted`): a persisted cookie has five segments and one more
for each such semicolon. Where there is none, the five are the token under its
name and the four attributes of the cookie, and only there
(`segments_of_persist_iff`). A path with a semicolon brings an attribute that
the cookie has not (`persist_brings_domain`). Lifetime, Secure and HttpOnly
stand at the end of the text, whatever stands before them.

The text is the one of `StateCookie` in SPEC_FULL.md §4.2.
-/
import SealedState.Proofs.CookieTrip

namespace SealedState

namespace Cookie

/-! ## Reading the text -/

/-- The segments of a text, without the blanks around them. -/
def segments (text : String) : List (List Char) := (splitAll ';' text.toList).map trim

/-- The name of an attribute and, behind the first sign of equality, its
value. -/
def readAttribute (segment : List Char) : List Char × Option (List Char) :=
  match splitFirst? '=' segment with
  | some (name, value) => (trim name, some (trim value))
  | none => (trim segment, none)

/-- The attributes in a text: all of its segments but the first. -/
def readAttributes (text : String) : List (List Char × Option (List Char)) :=
  (splitAll ';' text.toList).tail.map readAttribute

/-! ## Writing the text -/

/-- The text is cut where it was put together, and wherever else there is a
semicolon. -/
theorem splitAll_headerText_eq_flatMap (c : Cookie) : splitAll ';' c.headerText.toList =
    ((c.name.toList ++ '=' :: c.value.toList)
      :: c.attributes.map fun item => ' ' :: item.toList).flatMap (splitAll ';') := by
  rw [toList_headerText, splitAll_joinWith_eq_flatMap (List.cons_ne_nil _ _)]

variable {name path token : String} {seconds : UInt64}

/-- The digits of a number are neither blanks nor semicolons. -/
theorem of_mem_repr {n : Nat} {ch : Char} (h : ch ∈ (Nat.repr n).toList) :
    isBlank ch = false ∧ ch ≠ ';' := by
  rw [Nat.toList_repr] at h
  have hdigit : ch.isDigit = true := Nat.isDigit_of_mem_toDigits (by decide) (by decide) h
  have hrange := Char.isDigit_iff_toNat.1 hdigit
  simp only [Char.reduceToNat] at hrange
  constructor
  · simp only [isBlank, Bool.or_eq_false_iff, Bool.and_eq_false_iff, decide_eq_false_iff_not,
      beq_eq_false_iff_ne]
    omega
  · rintro rfl
    cases hdigit

/-- The last three attributes of a persisted cookie are the same for every
name and path, and hold no semicolon. -/
theorem splitAll_persisted (name path token : String) (seconds : UInt64) :
    splitAll ';' (((make name token).withPath path).withMaxAge seconds).headerText.toList
      = splitAll ';' (name.toList ++ '=' :: token.toList)
        ++ splitAll ';' (' ' :: ("Path=" ++ path).toList)
        ++ (["Max-Age=" ++ Nat.repr seconds.toNat, "Secure", "HttpOnly"].map
          fun item => ' ' :: item.toList) := by
  have hattributes : (((make name token).withPath path).withMaxAge seconds).attributes
      = ["Path=" ++ path, "Max-Age=" ++ Nat.repr seconds.toNat, "Secure", "HttpOnly"] := rfl
  have hage : ';' ∉ ("Max-Age=" ++ Nat.repr seconds.toNat).toList := by
    rw [String.toList_append, List.mem_append, not_or]
    exact ⟨by decide, fun h => (of_mem_repr h).2 rfl⟩
  have hitems : ∀ item ∈ ["Max-Age=" ++ Nat.repr seconds.toNat, "Secure", "HttpOnly"],
      ';' ∉ item.toList := List.forall_mem_cons.2 ⟨hage, by decide⟩
  have hlast : ∀ part ∈ ["Max-Age=" ++ Nat.repr seconds.toNat, "Secure", "HttpOnly"].map
      (fun item => ' ' :: item.toList), ';' ∉ part := by
    intro part hpart
    obtain ⟨item, hitem, rfl⟩ := List.mem_map.1 hpart
    exact List.not_mem_cons_of_ne_of_not_mem (by decide) (hitems item hitem)
  rw [splitAll_headerText_eq_flatMap, hattributes, List.map_cons, List.flatMap_cons,
    List.flatMap_cons, flatMap_splitAll hlast, List.append_assoc]
  rfl

/-- There are five segments, and one more for each semicolon in the name or
the path. -/
theorem length_segments_persisted (htoken : ';' ∉ token.toList) :
    (segments (((make name token).withPath path).withMaxAge seconds).headerText).length
      = 5 + name.toList.count ';' + path.toList.count ';' := by
  have hfirst : (name.toList ++ '=' :: token.toList).count ';' = name.toList.count ';' := by
    rw [List.count_append, List.count_cons_of_ne (by decide), List.count_eq_zero.2 htoken,
      Nat.add_zero]
  have hpath : (' ' :: ("Path=" ++ path).toList).count ';' = path.toList.count ';' := by
    rw [List.count_cons_of_ne (by decide), String.toList_append, List.count_append,
      List.count_eq_zero.2 (by decide), Nat.zero_add]
  rw [segments, List.length_map, splitAll_persisted, List.length_append, List.length_append,
    length_splitAll, length_splitAll, hfirst, hpath]
  simp only [List.map_cons, List.map_nil, List.length_cons, List.length_nil]
  omega

/-- Without semicolons in name and path the text is cut as it was written. -/
theorem splitAll_persisted_of_not_mem (htoken : ';' ∉ token.toList) (hname : ';' ∉ name.toList)
    (hpath : ';' ∉ path.toList) :
    splitAll ';' (((make name token).withPath path).withMaxAge seconds).headerText.toList
      = (name.toList ++ '=' :: token.toList)
        :: (["Path=" ++ path, "Max-Age=" ++ Nat.repr seconds.toNat, "Secure", "HttpOnly"].map
          fun item => ' ' :: item.toList) := by
  have hfirst : ';' ∉ name.toList ++ '=' :: token.toList := by simp [hname, htoken]
  have hsecond : ';' ∉ ' ' :: ("Path=" ++ path).toList := by
    simp [hpath]
  rw [splitAll_persisted, splitAll_of_not_mem hfirst, splitAll_of_not_mem hsecond]
  rfl

/-- The blank before an attribute is trimmed off. -/
theorem map_trim_items (items : List String) :
    (items.map fun item => ' ' :: item.toList).map trim = items.map fun item => trim item.toList :=
  List.map_map

/-- Only then the segments are those that are written. -/
theorem segments_persisted_iff (htoken : ';' ∉ token.toList) :
    segments (((make name token).withPath path).withMaxAge seconds).headerText
      = [name ++ "=" ++ token, "Path=" ++ path, "Max-Age=" ++ Nat.repr seconds.toNat, "Secure",
        "HttpOnly"].map (fun item => trim item.toList) ↔ ';' ∉ name.toList ∧ ';' ∉ path.toList := by
  constructor
  · intro h
    -- A semicolon makes one segment too many.
    have hlength := congrArg List.length h
    rw [length_segments_persisted htoken, List.length_map] at hlength
    simp only [List.length_cons, List.length_nil] at hlength
    exact ⟨List.count_eq_zero.1 (by omega), List.count_eq_zero.1 (by omega)⟩
  · rintro ⟨hname, hpath⟩
    have hfirst : (name ++ "=" ++ token).toList = name.toList ++ '=' :: token.toList := by simp
    rw [segments, splitAll_persisted_of_not_mem htoken hname hpath, List.map_cons, map_trim_items,
      ← hfirst]
    rfl

theorem readAttribute_of_cut {before after : List Char} (h : '=' ∉ before) :
    readAttribute (before ++ '=' :: after) = (trim before, some (trim after)) := by
  rw [readAttribute, splitFirst?_append after h]

theorem readAttributes_persisted (htoken : ';' ∉ token.toList) (hname : ';' ∉ name.toList)
    (hpath : ';' ∉ path.toList) :
    readAttributes (((make name token).withPath path).withMaxAge seconds).headerText
      = [("Path".toList, some (trim path.toList)),
        ("Max-Age".toList, some (Nat.repr seconds.toNat).toList), ("Secure".toList, none),
        ("HttpOnly".toList, none)] := by
  have hpathItem : readAttribute (' ' :: ("Path=" ++ path).toList)
      = ("Path".toList, some (trim path.toList)) := by
    have hcut : ' ' :: ("Path=" ++ path).toList = " Path".toList ++ '=' :: path.toList := by simp
    rw [hcut, readAttribute_of_cut (by decide)]
    rfl
  have hageItem : readAttribute (' ' :: ("Max-Age=" ++ Nat.repr seconds.toNat).toList)
      = ("Max-Age".toList, some (Nat.repr seconds.toNat).toList) := by
    have hcut : ' ' :: ("Max-Age=" ++ Nat.repr seconds.toNat).toList
        = " Max-Age".toList ++ '=' :: (Nat.repr seconds.toNat).toList := by simp
    have hdigits : Trimmed isBlank (Nat.repr seconds.toNat).toList :=
      trimmed_of_forall fun ch hch => (of_mem_repr hch).1
    rw [hcut, readAttribute_of_cut (by decide), trim, trim, trimBy_of_trimmed hdigits]
    rfl
  rw [readAttributes, splitAll_persisted_of_not_mem htoken hname hpath, List.tail_cons]
  simp only [List.map_cons, List.map_nil, hpathItem, hageItem]
  rfl

end Cookie

namespace Codec

variable {c : Codec} {now : Int64} {random : RandomSource} {σ : Shape} {v : σ.Val}

/-- The text of a persisted cookie has five segments and one more for each
semicolon in the name or the path. Where there is no such semicolon, and only
there, the segments are the token under the name, the path, the lifetime,
Secure and HttpOnly, but for blanks around them; so a client reads these four
attributes, once each and with the values of the cookie. The last three of
the segments are these for every name and path. -/
theorem segments_of_persist_iff {name path : String} {cookie : Cookie}
    (h : (c.persist now random name path v).1.result = .ok cookie) :
    ∃ token, (c.encode now random v).1.result = .ok token ∧
      (Cookie.segments cookie.headerText).length
        = 5 + name.toList.count ';' + path.toList.count ';' ∧
      (Cookie.segments cookie.headerText
        = [name ++ "=" ++ token, "Path=" ++ path, "Max-Age=" ++ Nat.repr c.timeout.toNat, "Secure",
          "HttpOnly"].map (fun item => trim item.toList) ↔
        ';' ∉ name.toList ∧ ';' ∉ path.toList) ∧
      (';' ∉ name.toList → ';' ∉ path.toList → Cookie.readAttributes cookie.headerText
        = [("Path".toList, some (trim path.toList)),
          ("Max-Age".toList, some (Nat.repr c.timeout.toNat).toList), ("Secure".toList, none),
          ("HttpOnly".toList, none)]) ∧
      ∃ earlier, Cookie.segments cookie.headerText = earlier
        ++ ["Max-Age=" ++ Nat.repr c.timeout.toNat, "Secure", "HttpOnly"].map
          (fun item => trim item.toList) := by
  obtain ⟨token, hencode, rfl⟩ := persist_eq_ok_iff.1 h
  have htoken := (isPlain_of_encode hencode).semicolon
  refine ⟨token, hencode, Cookie.length_segments_persisted htoken,
    Cookie.segments_persisted_iff htoken, Cookie.readAttributes_persisted htoken, ?_⟩
  refine ⟨(splitAll ';' (name.toList ++ '=' :: token.toList)
    ++ splitAll ';' (' ' :: ("Path=" ++ path).toList)).map trim, ?_⟩
  rw [Cookie.segments, Cookie.splitAll_persisted, List.map_append, Cookie.map_trim_items]

/-- A name with a sign of equality, and a path with blanks around it and a
comma before what looks like an attribute. -/
theorem segments_of_persist_iff_sample : ∃ cookie token,
    ((sample [] 900).persist 1000 sampleRandom "a=b" "\u00a0/cb, Domain=example.org "
      sampleValue).1.result = .ok cookie ∧
    ((sample [] 900).encode 1000 sampleRandom sampleValue).1.result = .ok token ∧
    Cookie.segments cookie.headerText
      = ["a=b" ++ "=" ++ token, "Path=\u00a0/cb, Domain=example.org", "Max-Age=900", "Secure",
        "HttpOnly"].map (fun item => trim item.toList) ∧
    Cookie.readAttributes cookie.headerText
      = [("Path".toList, some "/cb, Domain=example.org".toList),
        ("Max-Age".toList, some "900".toList), ("Secure".toList, none),
        ("HttpOnly".toList, none)] := by
  obtain ⟨token, hencode⟩ := exists_sample_token [] 900 1000
  obtain ⟨cookie, hcookie⟩ : ∃ cookie, ((sample [] 900).persist 1000 sampleRandom "a=b"
      "\u00a0/cb, Domain=example.org " sampleValue).1.result = .ok cookie :=
    ⟨_, persist_eq_ok_iff.2 ⟨token, hencode, rfl⟩⟩
  obtain ⟨token', hencode', -, hsegments, hattributes, -⟩ := segments_of_persist_iff hcookie
  have hage : Nat.repr (sample [] 900).timeout.toNat = "900" := by decide
  have hpart : trim ("Path=" ++ "\u00a0/cb, Domain=example.org ").toList
      = trim "Path=\u00a0/cb, Domain=example.org".toList := by decide
  have hpath : trim "\u00a0/cb, Domain=example.org ".toList
      = "/cb, Domain=example.org".toList := by decide
  have hname : ';' ∉ "a=b".toList := by decide
  have hplain : ';' ∉ "\u00a0/cb, Domain=example.org ".toList := by decide
  refine ⟨cookie, token', hcookie, hencode', ?_, ?_⟩
  · rw [hsegments.2 ⟨hname, hplain⟩, hage, List.map_cons, List.map_cons, hpart]
    rfl
  · rw [hattributes hname hplain, hage, hpath]

/-- A path with a semicolon brings a sixth segment, in which a client reads a
domain that the cookie has not. -/
theorem persist_brings_domain : ∃ cookie token,
    ((sample [] 900).persist 1000 sampleRandom "flow" "/cb; Domain=example.org"
      sampleValue).1.result = .ok cookie ∧
    ((sample [] 900).encode 1000 sampleRandom sampleValue).1.result = .ok token ∧
    (Cookie.segments cookie.headerText).length = 6 ∧
    Cookie.segments cookie.headerText ≠ ["flow=" ++ token, "Path=/cb; Domain=example.org",
      "Max-Age=900", "Secure", "HttpOnly"].map (fun item => trim item.toList) ∧
    ("Domain".toList, some "example.org".toList) ∈ Cookie.readAttributes cookie.headerText := by
  obtain ⟨token, hencode⟩ := exists_sample_token [] 900 1000
  have htoken := (isPlain_of_encode hencode).semicolon
  let cookie := ((Cookie.make "flow" token).withPath "/cb; Domain=example.org").withMaxAge 900
  have hlength : (Cookie.segments cookie.headerText).length = 6 :=
    Cookie.length_segments_persisted htoken
  refine ⟨cookie, token, persist_eq_ok_iff.2 ⟨token, hencode, rfl⟩, hencode, hlength, ?_, ?_⟩
  · intro h
    rw [h] at hlength
    cases hlength
  · -- The token stands in the first segment, which is no attribute; what is left is closed.
    have hfirst : ';' ∉ "flow".toList ++ '=' :: token.toList := by simp [htoken]
    rw [Cookie.readAttributes, Cookie.splitAll_persisted, splitAll_of_not_mem hfirst,
      List.singleton_append, List.cons_append, List.tail_cons]
    decide

end Codec

end SealedState
