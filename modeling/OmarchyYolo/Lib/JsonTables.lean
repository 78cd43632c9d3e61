import OmarchyYolo.Lib.Dict
import OmarchyYolo.Lib.JsonRoundTrip

/-!
# OmarchyYolo.Lib.JsonTables — objects written from their items

An object or an array that is written from a list, read through the list.

* `Members.get?_ofList` — a look-up in the object is one in the list;
* `Json.IsToml` — the values that TOML can write down;
* `Members.isToml_ofList` — items with every key once are a table.
-/

namespace PyJson

open Py

variable {F : Type} {items : List (Str × Json F)}

theorem Members.get?_ofList (key : Str) (items : List (Str × Json F)) :
    (Members.ofList items).get? key = dictGet? key items := by
  induction items with
  | nil => rfl
  | cons item items ih =>
    rcases item with ⟨k, x⟩
    rw [ofList, get?, dictGet?, ih]

theorem Members.keys_ofList (items : List (Str × Json F)) :
    (Members.ofList items).keys = items.map Prod.fst := by
  induction items with
  | nil => rfl
  | cons item items ih =>
    rcases item with ⟨k, x⟩
    rw [ofList, keys, ih, List.map_cons]

mutual

/-- A value of a TOML document: no null, Unicode strings, no key twice. -/
def Json.IsToml : Json F → Prop
  | .null => False
  | .str s => isText s = true
  | .arr xs => xs.IsToml
  | .obj ms => ms.IsToml
  | _ => True

def Elems.IsToml : Elems F → Prop
  | .nil => True
  | .cons x xs => x.IsToml ∧ xs.IsToml

def Members.IsToml : Members F → Prop
  | .nil => True
  | .cons k x ms => (k ∉ ms.keys ∧ isText k = true) ∧ x.IsToml ∧ ms.IsToml

end

theorem Elems.isToml_iff {xs : Elems F} : xs.IsToml ↔ ∀ x ∈ xs.toList, x.IsToml := by
  induction xs with
  | nil =>
    constructor
    · intro _ x hx
      cases hx
    · intro _
      trivial
  | cons x xs ih => rw [IsToml, toList, List.forall_mem_cons, ih]

theorem Members.isToml_ofList (hnodup : (items.map Prod.fst).Nodup)
    (h : ∀ item ∈ items, isText item.1 = true ∧ item.2.IsToml) : (Members.ofList items).IsToml := by
  induction items with
  | nil => trivial
  | cons item items ih =>
    rcases item with ⟨k, x⟩
    rw [List.map_cons, List.nodup_cons] at hnodup
    rw [List.forall_mem_cons] at h
    refine ⟨⟨?_, h.1.1⟩, h.1.2, ih hnodup.2 h.2⟩
    rw [keys_ofList]
    exact hnodup.1

/-- What a table of a document holds is a value of the document. -/
theorem Members.IsToml.get? {ms : Members F} {key : Str} {x : Json F} (h : ms.IsToml)
    (hget : ms.get? key = some x) : x.IsToml := by
  induction ms with
  | nil => cases hget
  | cons k y ms ih =>
    rw [Members.get?] at hget
    split_ifs at hget with hk
    · cases hget
      exact h.2.1
    · exact ih h.2.2 hget

end PyJson
