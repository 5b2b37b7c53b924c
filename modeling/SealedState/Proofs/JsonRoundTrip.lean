/-
SealedState.Proofs.JsonRoundTrip — JSON gives back what it was given.

`Serializer.json_round_trip` puts together that values of all shapes are
read back (`written_shape`) and that values which are too deep are written
and then refused (`document_of_lt_depth`).

This is the round trip of SPEC_FULL.md §10 for `JsonSerializer`.
-/
import SealedState.Proofs.JsonDepth

namespace SealedState

namespace Json.Reader

theorem written_integers {k : IntegerKind} (ns : List k.Value) :
    Written (list (integerOfKind k)) (writeList (ns.map (writeInteger ·.val))) ns :=
  written_list_map fun v _ => written_integerOfKind v

/-- A value of a shape is read back, a map from byte strings apart. -/
theorem written_shape : ∀ (σ : Shape) (v : σ.Val), σ ≠ .byteMap → σ.Exact v →
    ∃ text, writeShape σ v = .ok text ∧ (σ.nesting v ≤ maxDepth → Written (shape σ) text v)
  | .json, (x : Json), _, hexact => ⟨x.write, rfl, fun hdepth => written_value hexact _ hdepth⟩
  | .flow, f, _, _ => ⟨writeFlow f, rfl, fun _ => written_flow f⟩
  | .text, s, _, _ => ⟨writeText s, rfl, fun _ => written_string s⟩
  | .boolean, b, _, _ => ⟨writeBoolean b, rfl, fun _ => written_boolean b⟩
  | .integer _, n, _, _ => ⟨writeInteger n.val, rfl, fun _ => written_integerOfKind n⟩
  | .float, _, _, hexact => hexact.elim
  | .optionalInteger k, o, _, _ =>
    ⟨writeOption (fun n : k.Value => writeInteger n.val) o, rfl,
      fun _ => written_optionalInteger o⟩
  | .integers k, ns, _, _ =>
    ⟨writeList (ns.map fun n : k.Value => writeInteger n.val), rfl, fun _ => written_integers ns⟩
  | .tuple, t, _, _ => ⟨writeTuple t, rfl, fun _ => written_tuple t⟩
  | .byteMap, _, hne, _ => absurd rfl hne

theorem Written.document {α : Type} {read : Reader α} {text : Bytes} {x : α}
    (h : Written read text x) : document read text = .ok x := by
  have hread := h.reads [] ends_nil
  rw [List.append_nil] at hread
  rw [Json.document, hread]
  rfl

/-- The text of a value with more containers open at once than may be is
refused. -/
theorem document_of_lt_depth {x : Json} (h : maxDepth < x.depth) :
    ∃ fault, document any x.write = .error fault := by
  cases hread : Json.document any x.write with
  | error fault => exact ⟨fault, rfl⟩
  | ok y =>
    obtain ⟨⟨z, after⟩, hvalue, -⟩ := bind_eq_ok_iff.1 hread
    have hdepth := (confined_value x maxDepth).stops [] ends_nil z after
      (by rw [List.append_nil]; exact hvalue)
    exact absurd hdepth.2 (Nat.not_le.2 h)

end Json.Reader

namespace Serializer

/-- JSON text gives back every value but floating-point numbers, as long as
at most 127 containers are open at once. A value with more is still
written, and never read. -/
theorem json_round_trip :
    (∀ (σ : Shape) (v : σ.Val), σ ≠ .byteMap → σ.Exact v → ∃ b, json.serialize σ v = .ok b ∧
      (σ.nesting v ≤ 127 → json.deserialize σ b = .ok v)) ∧
    ∀ x : Json, 128 ≤ x.depth → ∃ b reason, json.serialize .json x = .ok b ∧
      json.deserialize .json b = .error (.serialization reason) := by
  refine ⟨fun σ v hne hexact => ?_, fun x hdepth => ?_⟩
  · obtain ⟨text, htext, hwritten⟩ := Json.Reader.written_shape σ v hne hexact
    refine ⟨text, by simp only [json, htext], fun hnesting => ?_⟩
    simp only [json, (hwritten hnesting).document]
  · obtain ⟨fault, hfault⟩ := Json.Reader.document_of_lt_depth hdepth
    have hfault : Json.document (Json.Reader.shape .json) x.write = .error fault := hfault
    refine ⟨x.write, fault.message x.write, rfl, ?_⟩
    simp only [json, hfault]

/-- A list with a text in it, in as many more lists as are asked for. -/
def boxed : Nat → Json
  | 0 => .list [.text "a\"\n\u20ac", .number (.integer ⟨-7, by decide⟩), .object []]
  | n + 1 => .list [boxed n]

theorem json_round_trip_boxed : ∃ b reason long, json.serialize .json (boxed 3) = .ok b ∧
    json.deserialize .json b = .ok (boxed 3) ∧ json.serialize .json (boxed 126) = .ok long ∧
    json.deserialize .json long = .error (.serialization reason) := by
  have hexact : ∀ n, Json.Exact (boxed n) := by
    intro n
    induction n with
    | zero =>
      exact .list (List.forall_mem_cons.2 ⟨.text _, List.forall_mem_cons.2 ⟨.integer _,
        List.forall_mem_singleton.2 (.object .nil (by simp))⟩⟩)
    | succ n ih => exact .list (by simpa using ih)
  obtain ⟨b, hb, hread⟩ := json_round_trip.1 .json (boxed 3) (by decide) (hexact 3)
  obtain ⟨long, reason, hlong, hrefused⟩ := json_round_trip.2 (boxed 126) (by decide +kernel)
  exact ⟨b, reason, long, hb, hread (by decide +kernel), hlong, hrefused⟩

end Serializer

end SealedState
