/-
SealedState.Cbor.Segments — strings of bytes and of text, whole or in
segments.

A string whose length is known is one segment. Without a length, segments
of the same kind follow up to a stop; strings without a length may be
nested among them. A text has to be UTF-8 in each segment by itself. It is
checked in chunks of 4096 bytes, with at most three bytes carried over
that begin a character, so an earlier fault is reported before a later
one.

`CborSerializer` of SPEC_FULL.md §4.3 reads strings so.
-/
import SealedState.Cbor.Header
import SealedState.Text.Utf8

namespace SealedState.Cbor

/-- The number of bytes that a text is checked in at once. -/
def chunkLength : Nat := 4096

/-- Reads a segment from the bytes after its header: `start` is the number
of bytes that are left from the header on, `length` the one of the
segment. -/
abbrev SegmentReader (σ : Type) : Type :=
  σ → (start length : Nat) → Bytes → Except Fault (σ × Bytes)

/-- Reads segments up to the stop of the outermost string; `nested` strings
without a length are open in it. Every segment takes a byte, so `bound` is
more than their number. -/
def segments {σ : Type} (kind : Header → Option (Option Nat)) (read : SegmentReader σ) :
    (bound nested : Nat) → σ → Bytes → Except Fault (σ × Bytes)
  | 0, _, _, _ => .error .truncated
  | bound + 1, nested, s, rest => do
    let (h, after) ← Header.read rest
    match h, nested with
    | .stop, 0 => return (s, after)
    | .stop, nested + 1 => segments kind read bound nested s after
    | h, nested =>
      match kind h with
      | none => throw (.malformed rest.length)
      | some none => segments kind read bound (nested + 1) s after
      | some (some length) =>
        let (s, after) ← read s rest.length length after
        segments kind read bound nested s after

/-- Reads a string after its header `h`. -/
def string {σ : Type} (kind : Header → Option (Option Nat)) (read : SegmentReader σ)
    (h : Header) (length : Option Nat) (s : σ) (rest : Bytes) : Except Fault (σ × Bytes) :=
  match length with
  | some length => read s (h.size + rest.length) length rest
  | none => segments kind read (rest.length + 1) 0 s rest

/-- The length of a byte string, if a header begins one. -/
def bytesLength? : Header → Option (Option Nat)
  | .bytes length => some length
  | _ => none

/-- The length of a text, if a header begins one. -/
def textLength? : Header → Option (Option Nat)
  | .text length => some length
  | _ => none

/-! ## Bytes -/

/-- Reads a segment of bytes. -/
def bytesSegment : SegmentReader Bytes := fun before _ length rest =>
  match Bytes.split? length rest with
  | some (front, rest) => .ok (before ++ front, rest)
  | none => .error .truncated

/-- Reads the bytes of a byte string after its header. -/
def bytesAfter (length : Option Nat) (rest : Bytes) : Except Fault (Bytes × Bytes) :=
  string bytesLength? bytesSegment (.bytes length) length [] rest

/-! ## Text -/

/-- Reads a segment of text in chunks. `carried` begins a character whose
end is in the next chunk; `unread` bytes of the segment are left, fewer
than `bound`. -/
def textChunks (start : Nat) : (bound : Nat) → (carried : Bytes) → (unread : Nat) →
    List Char → Bytes → Except Fault (List Char × Bytes)
  | 0, _, _, _, _ => .error .truncated
  | bound + 1, carried, unread, before, rest =>
    if unread = 0 then
      if carried = [] then .ok (before, rest) else .error (.malformed start)
    else
      let new := min chunkLength (carried.length + unread) - carried.length
      match Bytes.split? new rest with
      | none => .error .truncated
      | some (chunk, rest) =>
        let (cs, cut) := Utf8.span (carried ++ chunk)
        if 3 < cut.length then .error (.malformed start)
        else textChunks start bound cut (unread - new) (before ++ cs) rest

/-- Reads a segment of text. -/
def textSegment : SegmentReader (List Char) := fun before start length rest =>
  textChunks start (length + 1) [] length before rest

/-- Reads a text after its header. -/
def textAfter (length : Option Nat) (rest : Bytes) : Except Fault (String × Bytes) := do
  let (cs, rest) ← string textLength? textSegment (.text length) length [] rest
  return (String.ofList cs, rest)

end SealedState.Cbor
