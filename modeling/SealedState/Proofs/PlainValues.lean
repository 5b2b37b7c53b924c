/-
SealedState.Proofs.PlainValues — what is asked of a value that is to be
read back.

No floating-point number may occur in it (`Exact`), and no more containers
may be open at once than readers accept (`depth`, `nesting`). For CBOR,
the names in objects have to be short (`ShortNames`), and the sizes of
texts and containers have to fit into 64 bits (`Sized`), which they do in
any memory. `Json.induct` is the induction over values with one case for
each kind.

They are asked of the values in the round trips of SPEC_FULL.md §10.
-/
import SealedState.Json.Basic
import SealedState.Payload.Shape
import SealedState.Text.Utf8

namespace SealedState

namespace Json

/-! ## Induction -/

/-- What holds of a container once it holds of its elements, and of the
other values, holds of all. -/
theorem induct {motive : Json → Prop} (null : motive .null)
    (boolean : ∀ b, motive (.boolean b)) (number : ∀ n, motive (.number n))
    (text : ∀ s, motive (.text s))
    (list : ∀ items, (∀ x ∈ items, motive x) → motive (.list items))
    (object : ∀ members, (∀ m ∈ members, motive m.2) → motive (.object members))
    (x : Json) : motive x := by
  refine @Json.rec motive (fun items => ∀ x ∈ items, motive x)
    (fun members => ∀ m ∈ members, motive m.2) (fun m => motive m.2)
    null boolean number text list object ?_ ?_ ?_ ?_ ?_ x
  · intro x hx
    cases hx
  · intro x items hx hitems
    exact List.forall_mem_cons.2 ⟨hx, hitems⟩
  · intro m hm
    cases hm
  · intro m members hm hmembers
    exact List.forall_mem_cons.2 ⟨hm, hmembers⟩
  · intro name x hx
    exact hx

/-! ## Depth -/

mutual

/-- The number of containers that are open at once in a value. -/
def depth : Json → Nat
  | .null => 0
  | .boolean _ => 0
  | .number _ => 0
  | .text _ => 0
  | .list items => depthItems items + 1
  | .object members => depthMembers members + 1

/-- The greatest depth of some values. -/
def depthItems : List Json → Nat
  | [] => 0
  | item :: items => max item.depth (depthItems items)

/-- The greatest depth of the values of some members. -/
def depthMembers : List (String × Json) → Nat
  | [] => 0
  | (_, value) :: members => max value.depth (depthMembers members)

end

theorem depthItems_le_iff {n : Nat} : ∀ {items : List Json},
    depthItems items ≤ n ↔ ∀ x ∈ items, x.depth ≤ n
  | [] => by simp [depthItems]
  | item :: items => by
      rw [depthItems, Nat.max_le, depthItems_le_iff, List.forall_mem_cons]

theorem depthMembers_le_iff {n : Nat} : ∀ {members : List (String × Json)},
    depthMembers members ≤ n ↔ ∀ m ∈ members, m.2.depth ≤ n
  | [] => by simp [depthMembers]
  | (name, value) :: members => by
      rw [depthMembers, Nat.max_le, depthMembers_le_iff, List.forall_mem_cons]

/-! ## Values without floating-point numbers -/

/-- A value in which no floating-point number occurs and whose objects hold
each name once, in order. -/
inductive Exact : Json → Prop
  | null : Exact .null
  | boolean (b : Bool) : Exact (.boolean b)
  | integer (n : integerBounds.Value) : Exact (.number (.integer n))
  | text (s : String) : Exact (.text s)
  | list {items : List Json} (h : ∀ x ∈ items, Exact x) : Exact (.list items)
  | object {members : List (String × Json)} (hascending : Ascending members)
      (h : ∀ m ∈ members, Exact m.2) : Exact (.object members)

/-- A value occurs in another one, or is that. -/
inductive Within (x : Json) : Json → Prop
  | self : Within x x
  | item {items : List Json} {y : Json} (hmem : y ∈ items) (h : Within x y) :
      Within x (.list items)
  | member {members : List (String × Json)} {m : String × Json} (hmem : m ∈ members)
      (h : Within x m.2) : Within x (.object members)

/-- The number of bytes of a text, or of elements of a container. -/
def size : Json → Nat
  | .text s => (Utf8.encode s).length
  | .list items => items.length
  | .object members => members.length
  | .null => 0
  | .boolean _ => 0
  | .number _ => 0

/-- The size of every text and of every container in a value fits into 64
bits, as all sizes in a memory do; a header could not hold others. -/
def Sized (x : Json) : Prop := ∀ y, Within y x → y.size < 0x10000000000000000

/-- The names of all members in a value are short. -/
def ShortNames (x : Json) : Prop :=
  ∀ members, Within (.object members) x → ∀ m ∈ members, (Utf8.encode m.1).length ≤ 4096

end Json

namespace Shape

/-- A value in which no floating-point number occurs. -/
def Exact : (σ : Shape) → σ.Val → Prop
  | .json, (x : Json) => x.Exact
  | .float, _ => False
  | .flow, _ => True
  | .text, _ => True
  | .boolean, _ => True
  | .integer _, _ => True
  | .optionalInteger _, _ => True
  | .integers _, _ => True
  | .tuple, _ => True
  | .byteMap, _ => True

/-- The number of containers that are open at once in a value. -/
def nesting : (σ : Shape) → σ.Val → Nat
  | .json, (x : Json) => x.depth
  | .flow, _ => 1
  | .integers _, _ => 1
  | .tuple, _ => 2
  | .byteMap, _ => 2
  | .text, _ => 0
  | .boolean, _ => 0
  | .integer _, _ => 0
  | .float, _ => 0
  | .optionalInteger _, _ => 0

/-- The names of members are short, where there are any but those of fields. -/
def ShortNames : (σ : Shape) → σ.Val → Prop
  | .json, (x : Json) => x.ShortNames
  | .flow, _ => True
  | .text, _ => True
  | .boolean, _ => True
  | .integer _, _ => True
  | .float, _ => True
  | .optionalInteger _, _ => True
  | .integers _, _ => True
  | .tuple, _ => True
  | .byteMap, _ => True

/-- The size of a text fits into 64 bits. -/
def SizedText (s : String) : Prop := (Utf8.encode s).length < 0x10000000000000000

/-- The sizes of texts and of containers in a value fit into 64 bits. -/
def Sized : (σ : Shape) → σ.Val → Prop
  | .json, (x : Json) => x.Sized
  | .flow, f => SizedText f.connectorId ∧ SizedText f.connectionId ∧ SizedText f.redirectUrl ∧
      ∀ s ∈ f.token, SizedText s
  | .text, s => SizedText s
  | .boolean, _ => True
  | .integer _, _ => True
  | .float, _ => True
  | .optionalInteger _, _ => True
  | .integers _, (ns : List _) => ns.length < 0x10000000000000000
  | .tuple, t => SizedText t.1 ∧ t.2.2.1.length < 0x10000000000000000
  | .byteMap, m => m.entries.length < 0x10000000000000000 ∧
      ∀ e ∈ m.entries, e.1.length < 0x10000000000000000

/-- A value that an item carries: it has no floating-point number, at most
127 containers are open at once, and names are short. Sizes are those of
values in a memory. -/
structure Carried (σ : Shape) (v : σ.Val) : Prop where
  exact : σ.Exact v
  shallow : σ.nesting v ≤ 127
  named : σ.ShortNames v
  sized : σ.Sized v

end Shape

end SealedState
